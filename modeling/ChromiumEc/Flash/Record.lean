import ChromiumEc.Flash.AtBoot
import ChromiumEc.Flash.CbiSection
import ChromiumEc.Flash.Pstate
import ChromiumEc.Lib.Reach

/-!
# Record — the persistent state is a record of independent fields

The protection, the serial number and the MAC address are read back as they were last written, or as
they were in the bank at first.  Each write goes through a copy of the whole struct, and leaves the
other fields in it.
-/

namespace ChromiumEc.Flash

open Lib (Changes load store)

variable {σ : Type*} {cfg : PstateConfig} {P : Chip σ} {m : Machine σ} {p q : Nat → UInt8}
  {valid valid' : UInt8} {off len off' len' length : Nat} {s : Nat → UInt8}

/-! ## The fields of a struct -/

/-- A field of the struct at `p`, if it is marked valid -/
def fieldOf (p : Nat → UInt8) (valid : UInt8) (off len : Nat) : Option (List UInt8) :=
  if Holds p valid then some (load p off len) else none

def PstateConfig.fieldsEnd (cfg : PstateConfig) : Nat :=
  cfg.macAddrAt + cfg.macAddrLen

theorem PstateConfig.fieldsEnd_le (cfg : PstateConfig) : cfg.fieldsEnd ≤ cfg.sizeofPersistState := by
  obtain ⟨k, hk⟩ := cfg.writeSize_pow
  have hpos : 0 < cfg.writeSize := hk ▸ Nat.two_pow_pos k
  have hdiv := Nat.div_add_mod (cfg.fieldsEnd + cfg.writeSize - 1) cfg.writeSize
  have hmod := Nat.mod_lt (cfg.fieldsEnd + cfg.writeSize - 1) hpos
  have hsize : cfg.sizeofPersistState =
      cfg.writeSize * ((cfg.fieldsEnd + cfg.writeSize - 1) / cfg.writeSize) := Nat.mul_comm _ _
  omega

theorem PstateConfig.four_le_fieldsEnd (cfg : PstateConfig) : 4 ≤ cfg.fieldsEnd :=
  Nat.le_trans (Nat.le_add_right 4 cfg.serialnoLen) (Nat.le_add_right _ cfg.macAddrLen)

def Agree (cfg : PstateConfig) (p q : Nat → UInt8) : Prop :=
  ∀ i < cfg.fieldsEnd, p i = q i

theorem Agree.holds (h : Agree cfg p q) (valid : UInt8) : Holds p valid ↔ Holds q valid := by
  have hlt := cfg.four_le_fieldsEnd
  rw [Holds, Holds, h 0 (by omega), h 2 (by omega)]

theorem Agree.locks (h : Agree cfg p q) : Locks p ↔ Locks q := by
  have hlt := cfg.four_le_fieldsEnd
  rw [Locks, Locks, h.holds, h 1 (by omega)]

theorem Agree.fieldOf (h : Agree cfg p q) (hend : off + len ≤ cfg.fieldsEnd) :
    fieldOf p valid off len = fieldOf q valid off len := by
  have hload : load p off len = load q off len :=
    Lib.load_congr fun x _ hx => h x (by omega)
  rw [Flash.fieldOf, Flash.fieldOf, hload]
  exact ite_congr (propext (h.holds valid)) (fun _ => rfl) fun _ => rfl

theorem flashWritePstateData_agree (hP : P.Lawful cfg.toAccessConfig)
    (hrv : (flashWritePstateData cfg P q m).1 = 0) :
    Agree cfg (cfg.pstate (flashWritePstateData cfg P q m).2.vboot.flash) q := by
  have hle := cfg.fwPstate_le
  have hsize : cfg.sizeofPersistState ≤ cfg.fwPstateSize := cfg.persistState_le
  have hwrite : cfg.writeSize ∣ cfg.sizeofPersistState := Nat.dvd_mul_left _ _
  rw [flashWritePstateData] at hrv ⊢
  split at hrv
  · rename_i hfails
    exact absurd hrv hfails
  · rename_i hok
    rw [if_neg hok]
    have hchanged := physicalWrite_changed hP q
      (physicalErase P cfg.fwPstateOff cfg.fwPstateSize m).2 (Int.natCast_nonneg _)
      (Int.natCast_nonneg _) (by omega)
      (Or.inr ⟨Int.natCast_dvd_natCast.mpr cfg.fwPstateOff_write,
        Int.natCast_dvd_natCast.mpr hwrite⟩)
    intro i hi
    have hlt := Nat.lt_of_lt_of_le hi cfg.fieldsEnd_le
    have hbyte := hchanged.effect hrv (cfg.fwPstateOff + i) ⟨by omega, by omega⟩
    rw [PstateConfig.pstate, hbyte, written]
    congr 1
    omega

/-! ## The copy in RAM -/

theorem validatePstateStruct_holds (cfg : PstateConfig) (p : Nat → UInt8) (valid : UInt8) :
    Holds (validatePstateStruct cfg p) valid ↔ Holds p valid := by
  rw [validatePstateStruct]
  split
  -- of an old version the valid bits are cleared
  · rename_i hversion
    refine iff_of_false ?_ fun h => hversion h.1
    rintro ⟨-, hfield⟩
    have hle := Nat.le_trans cfg.four_le_fieldsEnd cfg.fieldsEnd_le
    rw [Lib.store_of_le (by simp), Lib.store_replicate, if_pos ⟨Nat.zero_le _, by omega⟩] at hfield
    exact hfield UInt8.zero_and
  · exact Iff.rfl

theorem validatePstateStruct_of_holds (h : Holds p valid) : validatePstateStruct cfg p = p := by
  rw [validatePstateStruct, if_neg (not_not.mpr h.1)]

theorem validatePstateStruct_version (cfg : PstateConfig) (p : Nat → UInt8) :
    validatePstateStruct cfg p 0 = persistStateVersion := by
  rw [validatePstateStruct]
  split
  · rfl
  · rename_i hversion
    exact not_not.mp hversion

theorem validatePstateStruct_fieldOf :
    fieldOf (validatePstateStruct cfg p) valid off len = fieldOf p valid off len := by
  rw [fieldOf, fieldOf]
  by_cases h : Holds p valid
  · rw [validatePstateStruct_of_holds h]
  · rw [if_neg h, if_neg (mt (validatePstateStruct_holds cfg p valid).mp h)]

theorem validatePstateStruct_locks : Locks (validatePstateStruct cfg p) ↔ Locks p := by
  rw [Locks, Locks, validatePstateStruct_holds cfg p]
  refine and_congr_right fun h => ?_
  rw [validatePstateStruct_of_holds h]

theorem cachedPstate_version (cfg : PstateConfig) (m : Machine σ) :
    cachedPstate cfg m 0 = persistStateVersion :=
  validatePstateStruct_version cfg _

/-! ## A string is put in a field -/

theorem or_and_distrib (x a b : UInt8) : (x ||| a) &&& b = x &&& b ||| a &&& b := by
  apply UInt8.eq_of_toBitVec_eq
  apply BitVec.eq_of_getLsbD_eq
  intro i _
  simp only [UInt8.toBitVec_and, UInt8.toBitVec_or, BitVec.getLsbD_and, BitVec.getLsbD_or,
    Bool.and_or_distrib_right]

theorem or_and_of_disjoint {x a b : UInt8} (h : a &&& b = 0) : (x ||| a) &&& b = x &&& b := by
  rw [or_and_distrib, h, UInt8.or_zero]

theorem or_and_self_ne_zero {x a : UInt8} (h : a ≠ 0) : (x ||| a) &&& a ≠ 0 := by
  rw [or_and_distrib, UInt8.and_self]
  exact fun hzero => h (UInt8.or_eq_zero_iff.mp hzero).2

theorem putString_header (hoff : 4 ≤ off) {i : Nat} (hi : i < 4) :
    putString p off len s length valid i = if i = 2 then p 2 ||| valid else p i := by
  have hbefore : ∀ j < 4, store (store p off (List.replicate len 0)) off (load s 0 length) j = p j := by
    intro j hj
    rw [Lib.store_of_lt (by omega), Lib.store_of_lt (by omega)]
  simp only [putString]
  -- only the byte of the valid bits is written in front of the fields
  split
  · rename_i htwo
    subst htwo
    rw [store, if_pos (le_refl 2), hbefore 2 (by omega)]
    rfl
  · rename_i htwo
    rcases Nat.lt_or_ge i 2 with hlt | hge
    · rw [Lib.store_of_lt hlt, hbefore i hi]
    · rw [Lib.store_of_le (by rw [List.length_singleton]; omega), hbefore i hi]

theorem putString_load_eq (hoff' : 4 ≤ off') :
    load (putString p off len s length valid) off' len' =
      load (store (store p off (List.replicate len 0)) off (load s 0 length)) off' len' := by
  rw [putString]
  exact Lib.load_store_of_disjoint (Or.inr (by rw [List.length_singleton]; omega))

theorem putString_load (hoff : 4 ≤ off) (hlen : length ≤ len) :
    load (putString p off len s length valid) off len =
      load s 0 length ++ List.replicate (len - length) 0 := by
  obtain ⟨rest, rfl⟩ := Nat.exists_eq_add_of_le hlen
  have hstring := Lib.load_store (store p off (List.replicate (length + rest) 0)) off
    (load s 0 length)
  rw [Lib.length_load] at hstring
  -- behind the string the field was cleared
  have hrest : load (store (store p off (List.replicate (length + rest) 0)) off (load s 0 length))
      (off + length) rest = List.replicate rest 0 := by
    rw [Lib.load_store_of_disjoint (Or.inr (by rw [Lib.length_load])),
      Lib.load_store_part (by rw [List.length_replicate]), List.drop_replicate, List.take_replicate,
      Nat.add_sub_cancel_left, Nat.min_self]
  rw [Nat.add_sub_cancel_left, putString_load_eq hoff, Lib.load_add, hstring, hrest]

theorem putString_load_other (hoff' : 4 ≤ off') (hlen : length ≤ len)
    (hdisjoint : off' + len' ≤ off ∨ off + len ≤ off') :
    load (putString p off len s length valid) off' len' = load p off' len' := by
  rw [putString_load_eq hoff', Lib.load_store_of_disjoint (by rw [Lib.length_load]; omega),
    Lib.load_store_of_disjoint (by rw [List.length_replicate]; omega)]

theorem putString_fieldOf (hoff : 4 ≤ off) (hlen : length ≤ len) (hvalid : valid ≠ 0)
    (hversion : p 0 = persistStateVersion) :
    fieldOf (putString p off len s length valid) valid off len =
      some (load s 0 length ++ List.replicate (len - length) 0) := by
  rw [fieldOf, putString_load hoff hlen, if_pos]
  rw [Holds, putString_header hoff (by decide), putString_header hoff (by decide)]
  exact ⟨hversion, or_and_self_ne_zero hvalid⟩

theorem putString_holds (hoff : 4 ≤ off) (hbits : valid &&& valid' = 0) :
    Holds (putString p off len s length valid) valid' ↔ Holds p valid' := by
  rw [Holds, Holds, putString_header hoff (by decide), putString_header hoff (by decide),
    if_pos rfl, if_neg (by decide), or_and_of_disjoint hbits]

theorem putString_fieldOf_other (hoff : 4 ≤ off) (hoff' : 4 ≤ off') (hlen : length ≤ len)
    (hdisjoint : off' + len' ≤ off ∨ off + len ≤ off') (hbits : valid &&& valid' = 0) :
    fieldOf (putString p off len s length valid) valid' off' len' = fieldOf p valid' off' len' := by
  rw [fieldOf, fieldOf, putString_load_other hoff' hlen hdisjoint]
  exact ite_congr (propext (putString_holds hoff hbits)) (fun _ => rfl) fun _ => rfl

theorem putString_locks (hoff : 4 ≤ off) (hbits : valid &&& pstateValidFlags = 0) :
    Locks (putString p off len s length valid) ↔ Locks p := by
  rw [Locks, Locks, putString_holds hoff hbits, putString_header hoff (by decide),
    if_neg (by decide)]

/-! ## The flags are put in the struct -/

/-- What `flash_write_pstate` makes of the copy. -/
def putFlags (p : Nat → UInt8) (protect : Prop) [Decidable protect] : Nat → UInt8 :=
  let p :=
    if protect then store p 1 [p 1 ||| persistFlagProtectRo]
    else store p 1 [p 1 &&& ~~~persistFlagProtectRo]
  store p 2 [p 2 ||| pstateValidFlags]

section Flags

variable {protect : Prop} [Decidable protect]

theorem putFlags_apply (i : Nat) :
    putFlags p protect i =
      if i = 1 then if protect then p 1 ||| persistFlagProtectRo else p 1 &&& ~~~persistFlagProtectRo
      else if i = 2 then p 2 ||| pstateValidFlags
      else p i := by
  have hstore : ∀ (p : Nat → UInt8) (a : Nat) (b : UInt8),
      store p a [b] i = if i = a then b else p i := by
    intro p a b
    have hreplicate := Lib.store_replicate p a 1 b i
    rw [List.replicate_one] at hreplicate
    rw [hreplicate]
    exact ite_congr (by rw [eq_iff_iff]; omega) (fun _ => rfl) fun _ => rfl
  have htwo : ∀ b, store p 1 [b] 2 = p 2 := fun b =>
    Lib.store_of_le (by rw [List.length_singleton])
  rw [putFlags]
  split <;> rename_i hprotect
  · simp only [hstore, htwo]
    split_ifs <;> first | rfl | omega
  · simp only [hstore, htwo]
    split_ifs <;> first | rfl | omega

theorem putFlags_locks (hversion : p 0 = persistStateVersion) :
    Locks (putFlags p protect) ↔ protect := by
  have hvalid : Holds (putFlags p protect) pstateValidFlags := by
    rw [Holds, putFlags_apply, putFlags_apply, if_neg (by decide), if_neg (by decide),
      if_neg (by decide), if_pos rfl]
    exact ⟨hversion, or_and_self_ne_zero (by decide)⟩
  have hclear : ∀ x : UInt8, x &&& ~~~persistFlagProtectRo &&& persistFlagProtectRo = 0 := by
    intro x
    rw [UInt8.and_assoc]
    exact UInt8.and_zero
  rw [Locks, putFlags_apply, if_pos rfl]
  split
  · rename_i hprotect
    exact iff_of_true ⟨hvalid, or_and_self_ne_zero (by decide)⟩ hprotect
  · rename_i hprotect
    exact iff_of_false (fun h => h.2 (hclear _)) hprotect

theorem putFlags_fieldOf (hoff : 4 ≤ off) (hbits : pstateValidFlags &&& valid = 0) :
    fieldOf (putFlags p protect) valid off len = fieldOf p valid off len := by
  have hload : load (putFlags p protect) off len = load p off len :=
    Lib.load_congr fun x hx _ => by
      rw [putFlags_apply, if_neg (by omega), if_neg (by omega)]
  rw [fieldOf, fieldOf, hload]
  refine ite_congr (propext ?_) (fun _ => rfl) fun _ => rfl
  rw [Holds, Holds, putFlags_apply, putFlags_apply, if_neg (by decide), if_neg (by decide),
    if_neg (by decide), if_pos rfl, or_and_of_disjoint hbits]

end Flags

/-! ## Operations -/

/-- A call of one of the three functions that write the bank -/
inductive PstateOp
  | flags (flags : BitVec 32)
  | serial (serialno : Option (Nat → UInt8))
  | macAddr (macAddr : Option (Nat → UInt8))

namespace PstateOp

def run (cfg : PstateConfig) (P : Chip σ) : PstateOp → Machine σ → Int × Machine σ
  | .flags f => flashWritePstate cfg P f
  | .serial arg => crecFlashWritePstateSerial cfg P arg
  | .macAddr arg => crecFlashWritePstateMacAddr cfg P arg

def SerialOk (cfg : PstateConfig) (s : Nat → UInt8) : Prop :=
  strnlen s cfg.serialnoLen < cfg.serialnoLen

def MacOk (cfg : PstateConfig) (s : Nat → UInt8) : Prop :=
  strnlen s cfg.macAddrLen = 17 ∧ (List.range 17).all (fun i => macCharOk i (s i)) = true

instance (cfg : PstateConfig) : DecidablePred (SerialOk cfg) := fun _ =>
  inferInstanceAs (Decidable (_ < _))

instance (cfg : PstateConfig) : DecidablePred (MacOk cfg) := fun _ =>
  inferInstanceAs (Decidable (_ ∧ _))

def protect : PstateOp → Option Bool
  | .flags f => some (f.getLsbD roAtBoot)
  | _ => none

def serialno (cfg : PstateConfig) : PstateOp → Option (List UInt8)
  | .serial (some s) => if SerialOk cfg s then some (load s 0 (strnlen s cfg.serialnoLen)) else none
  | _ => none

def mac (cfg : PstateConfig) : PstateOp → Option (List UInt8)
  | .macAddr (some s) => if MacOk cfg s then some (load s 0 17) else none
  | _ => none

def Accepted (cfg : PstateConfig) (op : PstateOp) : Prop :=
  op.protect.isSome ∨ (op.serialno cfg).isSome ∨ (op.mac cfg).isSome

instance (cfg : PstateConfig) (op : PstateOp) : Decidable (op.Accepted cfg) :=
  inferInstanceAs (Decidable (_ ∨ _ ∨ _))

def Succeeds (cfg : PstateConfig) (P : Chip σ) (m : Machine σ) (op : PstateOp) : Prop :=
  op.Accepted cfg → (op.run cfg P m).1 = 0

instance (cfg : PstateConfig) (P : Chip σ) (m : Machine σ) (op : PstateOp) :
    Decidable (op.Succeeds cfg P m) :=
  inferInstanceAs (Decidable (_ → _))

def step (cfg : PstateConfig) (P : Chip σ) (m : Machine σ) (op : PstateOp) : Machine σ :=
  (op.run cfg P m).2

end PstateOp

/-! ## What is read back -/

abbrev Machine.pstate (m : Machine σ) (cfg : PstateConfig) : Nat → UInt8 :=
  cfg.pstate m.vboot.flash

def Machine.field (m : Machine σ) (len : Nat) (ptr : Option Nat) : Option (List UInt8) :=
  ptr.map fun a => load m.vboot.flash a len

/-- The string in a field: what is before the first `NUL`. -/
def cString (field : List UInt8) : List UInt8 :=
  field.takeWhile (· ≠ 0)

def readProtect (cfg : PstateConfig) (m : Machine σ) : Bool :=
  (flashReadPstate cfg.wpAlways (m.pstate cfg)).getLsbD roAtBoot

def readSerial (cfg : PstateConfig) (m : Machine σ) : Option (List UInt8) :=
  m.field cfg.serialnoLen (crecFlashReadPstateSerial cfg m)

def readMac (cfg : PstateConfig) (m : Machine σ) : Option (List UInt8) :=
  m.field cfg.macAddrLen (crecFlashReadPstateMacAddr cfg m)

theorem load_pstate (flash : Nat → UInt8) :
    load flash (cfg.fwPstateOff + off) len = load (cfg.pstate flash) off len := by
  refine List.map_congr_left fun i _ => ?_
  rw [PstateConfig.pstate, Nat.add_assoc]

theorem readSerial_eq (cfg : PstateConfig) (m : Machine σ) :
    readSerial cfg m = fieldOf (m.pstate cfg) pstateValidSerialno serialnoAt cfg.serialnoLen := by
  rw [readSerial, crecFlashReadPstateSerial, fieldOf]
  split
  · exact congrArg some (load_pstate _)
  · rfl

theorem readMac_eq (cfg : PstateConfig) (m : Machine σ) :
    readMac cfg m = fieldOf (m.pstate cfg) pstateValidMacAddr cfg.macAddrAt cfg.macAddrLen := by
  rw [readMac, crecFlashReadPstateMacAddr, fieldOf]
  split
  · exact congrArg some (load_pstate _)
  · rfl

theorem readProtect_iff (cfg : PstateConfig) (m : Machine σ) :
    readProtect cfg m = true ↔ Locks (m.pstate cfg) := by
  rw [readProtect, flashReadPstate]
  split
  · rename_i hlocks
    exact iff_of_true (by decide) hlocks
  · rename_i hlocks
    refine iff_of_false ?_ hlocks
    cases cfg.wpAlways <;> decide

/-! ## Strings -/

theorem strnlen_le (s : Nat → UInt8) (n : Nat) : strnlen s n ≤ n := by
  induction n generalizing s with
  | zero => exact Nat.le_refl 0
  | succ n ih =>
    rw [strnlen]
    split
    · exact Nat.zero_le _
    · exact Nat.succ_le_succ (ih _)

theorem ne_zero_of_lt_strnlen {i n : Nat} (h : i < strnlen s n) : s i ≠ 0 := by
  induction n generalizing s i with
  | zero => exact absurd h (Nat.not_lt_zero i)
  | succ n ih =>
    rw [strnlen] at h
    split at h
    · exact absurd h (Nat.not_lt_zero i)
    · rename_i hfirst
      cases i with
      | zero => exact hfirst
      | succ i => exact ih (s := fun i => s (i + 1)) (Nat.lt_of_succ_lt_succ h)

theorem cString_fill {n : Nat} (hlength : length ≤ strnlen s n) (k : Nat) :
    cString (load s 0 length ++ List.replicate k 0) = load s 0 length := by
  have hne : ∀ c ∈ load s 0 length, (decide (c ≠ 0)) = true := by
    intro c hc
    rw [load, List.mem_map] at hc
    obtain ⟨i, hi, rfl⟩ := hc
    rw [Nat.zero_add, decide_eq_true_eq]
    exact ne_zero_of_lt_strnlen (Nat.lt_of_lt_of_le (List.mem_range.mp hi) hlength)
  rw [cString, List.takeWhile_append_of_pos hne]
  cases k with
  | zero => exact List.append_nil _
  | succ k => exact List.append_nil _

/-! ## One operation -/

theorem accepted_cases {op : PstateOp} (h : op.Accepted cfg) :
    (∃ f, op = .flags f) ∨ (∃ s, op = .serial (some s) ∧ PstateOp.SerialOk cfg s) ∨
      ∃ s, op = .macAddr (some s) ∧ PstateOp.MacOk cfg s := by
  rcases op with f | arg | arg
  · exact Or.inl ⟨f, rfl⟩
  · rcases arg with _ | s
    · simp [PstateOp.Accepted, PstateOp.protect, PstateOp.serialno, PstateOp.mac] at h
    · by_cases hok : PstateOp.SerialOk cfg s
      · exact Or.inr (Or.inl ⟨s, rfl, hok⟩)
      · simp [PstateOp.Accepted, PstateOp.protect, PstateOp.serialno, PstateOp.mac, hok] at h
  · rcases arg with _ | s
    · simp [PstateOp.Accepted, PstateOp.protect, PstateOp.serialno, PstateOp.mac] at h
    · by_cases hok : PstateOp.MacOk cfg s
      · exact Or.inr (Or.inr ⟨s, rfl, hok⟩)
      · simp [PstateOp.Accepted, PstateOp.protect, PstateOp.serialno, PstateOp.mac, hok] at h

theorem run_rejected {op : PstateOp} (h : ¬ op.Accepted cfg) :
    op.run cfg P m = (ecErrorInval, m) := by
  rw [PstateOp.Accepted, not_or, not_or] at h
  rcases op with f | arg | arg
  · exact absurd rfl h.1
  · rcases arg with _ | s
    · rfl
    · have hbad : ¬ PstateOp.SerialOk cfg s := fun hok => h.2.1 (by simp [PstateOp.serialno, hok])
      exact if_pos (Nat.not_lt.mp hbad)
  · rcases arg with _ | s
    · rfl
    · have hbad : ¬ PstateOp.MacOk cfg s := fun hok => h.2.2 (by simp [PstateOp.mac, hok])
      simp only [PstateOp.run, crecFlashWritePstateMacAddr]
      split
      · rfl
      · rename_i hlength
        exact if_pos fun hchars => hbad ⟨not_not.mp hlength, hchars⟩

def filled (len : Nat) (s : List UInt8) : List UInt8 :=
  s ++ List.replicate (len - s.length) 0

structure ReadsBack (cfg : PstateConfig) (op : PstateOp) (m m' : Machine σ) : Prop where
  protect : readProtect cfg m' = op.protect.getD (readProtect cfg m)
  serial : readSerial cfg m' = ((op.serialno cfg).map (filled cfg.serialnoLen)).or (readSerial cfg m)
  mac : readMac cfg m' = ((op.mac cfg).map (filled cfg.macAddrLen)).or (readMac cfg m)

theorem ReadsBack.of_rejected {op : PstateOp} (h : ¬ op.Accepted cfg) : ReadsBack cfg op m m := by
  rw [PstateOp.Accepted, not_or, not_or, Bool.not_eq_true, Bool.not_eq_true, Bool.not_eq_true,
    Option.isSome_eq_false_iff, Option.isSome_eq_false_iff, Option.isSome_eq_false_iff,
    Option.isNone_iff_eq_none, Option.isNone_iff_eq_none, Option.isNone_iff_eq_none] at h
  obtain ⟨hprotect, hserial, hmac⟩ := h
  exact ⟨by rw [hprotect]; rfl, by rw [hserial]; rfl, by rw [hmac]; rfl⟩

theorem readProtect_of_agree (h : Agree cfg (m.pstate cfg) q) :
    readProtect cfg m = true ↔ Locks q :=
  (readProtect_iff cfg m).trans h.locks

theorem readSerial_of_agree (h : Agree cfg (m.pstate cfg) q) :
    readSerial cfg m = fieldOf q pstateValidSerialno serialnoAt cfg.serialnoLen := by
  rw [readSerial_eq]
  exact h.fieldOf (Nat.le_add_right _ _)

theorem readMac_of_agree (h : Agree cfg (m.pstate cfg) q) :
    readMac cfg m = fieldOf q pstateValidMacAddr cfg.macAddrAt cfg.macAddrLen := by
  rw [readMac_eq]
  exact h.fieldOf (Nat.le_refl _)

theorem cachedPstate_locks : Locks (cachedPstate cfg m) ↔ readProtect cfg m = true :=
  validatePstateStruct_locks.trans (readProtect_iff cfg m).symm

theorem cachedPstate_serial :
    fieldOf (cachedPstate cfg m) pstateValidSerialno serialnoAt cfg.serialnoLen =
      readSerial cfg m := by
  rw [readSerial_eq]
  exact validatePstateStruct_fieldOf

theorem cachedPstate_mac :
    fieldOf (cachedPstate cfg m) pstateValidMacAddr cfg.macAddrAt cfg.macAddrLen =
      readMac cfg m := by
  rw [readMac_eq]
  exact validatePstateStruct_fieldOf

theorem four_le_macAddrAt (cfg : PstateConfig) : 4 ≤ cfg.macAddrAt :=
  Nat.le_add_right 4 cfg.serialnoLen

theorem ReadsBack.flags (hP : P.Lawful cfg.toAccessConfig) (f : BitVec 32)
    (hrv : (flashWritePstate cfg P f m).1 = 0) :
    ReadsBack cfg (.flags f) m (flashWritePstate cfg P f m).2 := by
  have hflag : f &&& bit roAtBoot &&& bit roAtBoot ≠ 0 ↔ f.getLsbD roAtBoot = true := by
    rw [BitVec.and_assoc, BitVec.and_self, and_bit_ne_zero (by decide)]
  by_cases hsame : f &&& bit roAtBoot = flashReadPstate cfg.wpAlways (m.pstate cfg)
  · -- the flag is already as it is to be
    have hrun : flashWritePstate cfg P f m = (0, m) := if_pos hsame
    rw [hrun]
    refine ⟨?_, rfl, rfl⟩
    show readProtect cfg m = f.getLsbD roAtBoot
    rw [readProtect, ← hsame, BitVec.getLsbD_and, getLsbD_bit]
    simp
  -- else the copy is written with the new flag
  · have hrun : flashWritePstate cfg P f m =
        flashWritePstateData cfg P
          (putFlags (cachedPstate cfg m) (f &&& bit roAtBoot &&& bit roAtBoot ≠ 0)) m :=
      if_neg hsame
    rw [hrun] at hrv ⊢
    have hagree := flashWritePstateData_agree hP hrv
    refine ⟨?_, ?_, ?_⟩
    · show readProtect cfg _ = f.getLsbD roAtBoot
      rw [Bool.eq_iff_iff, readProtect_of_agree hagree, putFlags_locks (cachedPstate_version cfg m),
        hflag]
    · rw [readSerial_of_agree hagree, putFlags_fieldOf (by decide) (by decide), cachedPstate_serial]
      rfl
    · rw [readMac_of_agree hagree, putFlags_fieldOf (four_le_macAddrAt cfg) (by decide),
        cachedPstate_mac]
      rfl

theorem ReadsBack.serialno (hP : P.Lawful cfg.toAccessConfig) (hok : PstateOp.SerialOk cfg s)
    (hrv : (crecFlashWritePstateSerial cfg P (some s) m).1 = 0) :
    ReadsBack cfg (.serial (some s)) m (crecFlashWritePstateSerial cfg P (some s) m).2 := by
  have hrun : crecFlashWritePstateSerial cfg P (some s) m =
      flashWritePstateData cfg P (putString (cachedPstate cfg m) serialnoAt cfg.serialnoLen s
        (strnlen s cfg.serialnoLen) pstateValidSerialno) m :=
    if_neg (Nat.not_le.mpr hok)
  rw [hrun] at hrv ⊢
  have hagree := flashWritePstateData_agree hP hrv
  have hle := strnlen_le s cfg.serialnoLen
  refine ⟨?_, ?_, ?_⟩
  · show readProtect cfg _ = readProtect cfg m
    rw [Bool.eq_iff_iff, readProtect_of_agree hagree, putString_locks (by decide) (by decide),
      cachedPstate_locks]
  · rw [readSerial_of_agree hagree, putString_fieldOf (by decide) hle (by decide)
      (cachedPstate_version cfg m)]
    simp [PstateOp.serialno, hok, filled]
  · rw [readMac_of_agree hagree, putString_fieldOf_other (by decide) (four_le_macAddrAt cfg) hle
      (Or.inr (Nat.le_refl _)) (by decide), cachedPstate_mac]
    rfl

theorem ReadsBack.macAddr (hP : P.Lawful cfg.toAccessConfig) (hok : PstateOp.MacOk cfg s)
    (hrv : (crecFlashWritePstateMacAddr cfg P (some s) m).1 = 0) :
    ReadsBack cfg (.macAddr (some s)) m (crecFlashWritePstateMacAddr cfg P (some s) m).2 := by
  have hrun : crecFlashWritePstateMacAddr cfg P (some s) m =
      flashWritePstateData cfg P (putString (cachedPstate cfg m) cfg.macAddrAt cfg.macAddrLen s
        (strnlen s cfg.macAddrLen) pstateValidMacAddr) m := by
    simp only [crecFlashWritePstateMacAddr]
    rw [if_neg (not_not.mpr hok.1), if_neg (not_not.mpr hok.2)]
  rw [hrun] at hrv ⊢
  have hagree := flashWritePstateData_agree hP hrv
  have hle := strnlen_le s cfg.macAddrLen
  have hoff := four_le_macAddrAt cfg
  refine ⟨?_, ?_, ?_⟩
  · show readProtect cfg _ = readProtect cfg m
    rw [Bool.eq_iff_iff, readProtect_of_agree hagree, putString_locks hoff (by decide),
      cachedPstate_locks]
  · rw [readSerial_of_agree hagree, putString_fieldOf_other hoff (by decide) hle
      (Or.inl (Nat.le_refl _)) (by decide), cachedPstate_serial]
    rfl
  · rw [readMac_of_agree hagree, putString_fieldOf hoff hle (by decide)
      (cachedPstate_version cfg m), hok.1]
    simp [PstateOp.mac, hok, filled]

theorem readsBack_step (hP : P.Lawful cfg.toAccessConfig) {op : PstateOp}
    (hsucceeds : op.Succeeds cfg P m) : ReadsBack cfg op m (op.step cfg P m) := by
  by_cases haccepted : op.Accepted cfg
  · have hrv := hsucceeds haccepted
    rcases accepted_cases haccepted with ⟨f, rfl⟩ | ⟨s, rfl, hok⟩ | ⟨s, rfl, hok⟩
    · exact ReadsBack.flags hP f hrv
    · exact ReadsBack.serialno hP hok hrv
    · exact ReadsBack.macAddr hP hok hrv
  · rw [PstateOp.step, run_rejected haccepted]
    exact ReadsBack.of_rejected haccepted

/-! ## Sequences of operations -/

/-- What the last operation that writes the field writes to it -/
def lastWrite {α : Type*} (field : PstateOp → Option α) (ops : List PstateOp) : Option α :=
  ops.reverse.findSome? field

theorem lastWrite_cons {α : Type*} (field : PstateOp → Option α) (op : PstateOp)
    (ops : List PstateOp) : lastWrite field (op :: ops) = (lastWrite field ops).or (field op) := by
  rw [lastWrite, List.reverse_cons, List.findSome?_append, lastWrite]
  congr 1
  cases hop : field op <;> simp [hop]

theorem exists_of_lastWrite {α : Type*} {field : PstateOp → Option α} {ops : List PstateOp} {v : α}
    (h : lastWrite field ops = some v) : ∃ op, field op = some v := by
  obtain ⟨op, -, hop⟩ := List.exists_of_findSome?_eq_some h
  exact ⟨op, hop⟩

/-- A `NUL` ends the string in its field. -/
def Terminated (field : Option (List UInt8)) : Prop :=
  ∀ bytes ∈ field, 0 ∈ bytes

theorem filled_spec {n : Nat} (hlength : length ≤ strnlen s n) (hlt : length < len) :
    cString (filled len (load s 0 length)) = load s 0 length ∧
      0 ∈ filled len (load s 0 length) := by
  rw [filled, Lib.length_load]
  refine ⟨cString_fill hlength _, List.mem_append_right _ (List.mem_replicate.mpr ⟨?_, rfl⟩)⟩
  omega

theorem serialno_spec {op : PstateOp} {str : List UInt8} (h : op.serialno cfg = some str) :
    cString (filled cfg.serialnoLen str) = str ∧ 0 ∈ filled cfg.serialnoLen str := by
  rcases op with f | arg | arg
  · cases h
  · rcases arg with _ | s
    · cases h
    · rw [PstateOp.serialno] at h
      split at h
      · rename_i hok
        cases h
        exact filled_spec (Nat.le_refl _) hok
      · cases h
  · cases h

theorem mac_spec {op : PstateOp} {str : List UInt8} (h : op.mac cfg = some str) :
    cString (filled cfg.macAddrLen str) = str ∧ 0 ∈ filled cfg.macAddrLen str := by
  rcases op with f | arg | arg
  · cases h
  · cases h
  · rcases arg with _ | s
    · cases h
    · rw [PstateOp.mac] at h
      split at h
      · rename_i hok
        cases h
        have hle := strnlen_le s cfg.macAddrLen
        have hne := cfg.macAddrLen_ne
        rw [hok.1] at hle
        exact filled_spec (Nat.le_of_eq hok.1.symm) (by omega)
      · cases h

theorem readsBack_run (hP : P.Lawful cfg.toAccessConfig) (ops : List PstateOp) (m : Machine σ)
    (hok : Lib.Allowed (fun m op => op.step cfg P m) (fun m op => op.Succeeds cfg P m) m ops) :
    let m' := ops.foldl (fun m op => op.step cfg P m) m
    readProtect cfg m' = (lastWrite PstateOp.protect ops).getD (readProtect cfg m) ∧
      readSerial cfg m' = ((lastWrite (PstateOp.serialno cfg) ops).map
        (filled cfg.serialnoLen)).or (readSerial cfg m) ∧
      readMac cfg m' = ((lastWrite (PstateOp.mac cfg) ops).map
        (filled cfg.macAddrLen)).or (readMac cfg m) := by
  -- what a later operation writes goes before what this one does
  induction ops generalizing m with
  | nil => exact ⟨rfl, rfl, rfl⟩
  | cons op ops ih =>
    obtain ⟨hop, hops⟩ := hok
    have hstep := readsBack_step hP hop
    obtain ⟨hprotect, hserial, hmac⟩ := ih (op.step cfg P m) hops
    rw [hstep.protect] at hprotect
    rw [hstep.serial] at hserial
    rw [hstep.mac] at hmac
    refine ⟨?_, ?_, ?_⟩
    · rw [lastWrite_cons]
      refine hprotect.trans ?_
      cases lastWrite PstateOp.protect ops <;> rfl
    · rw [lastWrite_cons, Option.map_or, Option.or_assoc]
      exact hserial
    · rw [lastWrite_cons, Option.map_or, Option.or_assoc]
      exact hmac

/-- A string field after a sequence: the string that was written last, or the one of the beginning;
and what was written is terminated. -/
theorem string_readBack {written before after : Option (List UInt8)}
    (h : after = (written.map (filled len)).or before)
    (hspec : ∀ str ∈ written, cString (filled len str) = str ∧ 0 ∈ filled len str) :
    after.map cString = written.or (before.map cString) ∧
      (written.isSome ∨ Terminated before → Terminated after) := by
  subst h
  cases written with
  | none =>
    refine ⟨rfl, fun hterminated => ?_⟩
    exact hterminated.resolve_left Bool.false_ne_true
  | some str =>
    obtain ⟨hstring, hzero⟩ := hspec str rfl
    refine ⟨congrArg some hstring, fun _ bytes hbytes => ?_⟩
    cases hbytes
    exact hzero

/-- A rejected argument erases and writes nothing.  After every sequence of operations, as long as
the chip does what it is asked to, each field is as it was written last, or as it was at first if it
was valid; a string that was written is terminated, and one of the first content if it was. -/
theorem pstate_record (hP : P.Lawful cfg.toAccessConfig) :
    (∀ (m : Machine σ) (op : PstateOp), ¬ op.Accepted cfg →
      op.run cfg P m = (ecErrorInval, m)) ∧
    ∀ (m : Machine σ) (ops : List PstateOp),
      Lib.Allowed (fun m op => op.step cfg P m) (fun m op => op.Succeeds cfg P m) m ops →
      let m' := ops.foldl (fun m op => op.step cfg P m) m
      readProtect cfg m' = (lastWrite PstateOp.protect ops).getD (readProtect cfg m) ∧
      ((readSerial cfg m').map cString =
          (lastWrite (PstateOp.serialno cfg) ops).or ((readSerial cfg m).map cString) ∧
        ((lastWrite (PstateOp.serialno cfg) ops).isSome ∨ Terminated (readSerial cfg m) →
          Terminated (readSerial cfg m'))) ∧
      (readMac cfg m').map cString =
          (lastWrite (PstateOp.mac cfg) ops).or ((readMac cfg m).map cString) ∧
        ((lastWrite (PstateOp.mac cfg) ops).isSome ∨ Terminated (readMac cfg m) →
          Terminated (readMac cfg m')) := by
  refine ⟨fun m op h => run_rejected h, fun m ops hok => ?_⟩
  obtain ⟨hprotect, hserial, hmac⟩ := readsBack_run hP ops m hok
  refine ⟨hprotect, string_readBack hserial fun str hstr => ?_,
    string_readBack hmac fun str hstr => ?_⟩
  · obtain ⟨op, hop⟩ := exists_of_lastWrite hstr
    exact serialno_spec hop
  · obtain ⟨op, hop⟩ := exists_of_lastWrite hstr
    exact mac_spec hop

theorem four_pow : ∃ k, 4 = 2 ^ k :=
  ⟨2, rfl⟩

theorem eight_pow : ∃ k, 8 = 2 ^ k :=
  ⟨3, rfl⟩

/-- A flash of 128 bytes with the persistent state in its second half -/
def demoPstate : PstateConfig where
  flashSize := 128
  flashSize_le := by decide
  writeSize := 4
  eraseSize := 8
  roOffset := 0
  activeOffset := 0
  updateOffset := 0
  writeSize_pow := four_pow
  eraseSize_pow := eight_pow
  erasedValue := 0xff
  mappedStorage := true
  externalStorage := false
  multipleRegion := false
  vbootHash := false
  taskRwsig := false
  writableStorageOff := 0
  rwSize := 64
  cbi := none
  cbi_le := by simp
  cbi_aligned := by simp
  wpAlways := false
  fwPstateOff := 64
  fwPstateSize := 64
  serialnoLen := 28
  macAddrLen := 20
  macAddrLen_ne := by decide
  fwPstateOff_erase := by decide
  fwPstateSize_erase := by decide
  fwPstateOff_write := by decide
  fwPstate_le := by decide
  persistState_le := by decide

/-- The serial number `AB` is written, the protection is set, and no MAC address is given. -/
def demoOps : List PstateOp :=
  [.serial (some fun i => [0x41, 0x42].getD i 0), .flags (bit roAtBoot), .macAddr none]

theorem pstate_record_demo :
    readProtect demoPstate (demoOps.foldl
        (fun m op => op.step demoPstate (.obliging demoPstate.toAccessConfig) m) (.demo 0xff)) = true ∧
      (readSerial demoPstate (demoOps.foldl
        (fun m op => op.step demoPstate (.obliging demoPstate.toAccessConfig) m)
        (.demo 0xff))).map cString = some [0x41, 0x42] := by
  have hrecord := (pstate_record (Chip.obliging_lawful demoPstate.toAccessConfig)).2 (.demo 0xff)
    demoOps (by decide)
  exact ⟨hrecord.1, hrecord.2.1.1⟩

/-- A bank that holds a version and nothing but ones -/
theorem pstate_unterminated :
    ¬ ∀ (m : Machine Unit) (ops : List PstateOp),
      Lib.Allowed (fun m op => op.step demoPstate (.obliging demoPstate.toAccessConfig) m)
        (fun m op => op.Succeeds demoPstate (.obliging demoPstate.toAccessConfig) m) m ops →
      Terminated (readSerial demoPstate (ops.foldl
        (fun m op => op.step demoPstate (.obliging demoPstate.toAccessConfig) m) m)) := by
  intro h
  have hterminated := h
    { Machine.demo 0xff with
      vboot := VbootHash.State.boot fun a => if a = 64 then persistStateVersion else 0xff }
    [] trivial (List.replicate 28 0xff) (by decide)
  exact absurd hterminated (by decide)

end ChromiumEc.Flash
