import ChromiumEc.Usbc.DualRole.Select

/-!
# Request — the request data object

`pd_build_request`: the object that is requested, its power with the adjustment for a charge-through
VCONN-powered device, and the request data object.  The adjustment *replaces* the current by the one
that the impedance of the cable allows; the power requested of a battery object is that current
times its maximum voltage, although the current was computed for its minimum voltage.
-/

namespace ChromiumEc.Usbc.DualRole

open Lib

/-! ## The options and the inputs -/

/-- The options that only `pd_build_request` reads -/
structure RequestConfig extends Config where
  /-- No board has more than the 5 A of a cable. -/
  pdMaxCurrentMa_le : pdMaxCurrentMa ≤ 5000
  /-- `CONFIG_CHARGE_MANAGER` -/
  chargeManager : Bool
  /-- `CONFIG_USB_PD_CHECK_MAX_REQUEST_ALLOWED` -/
  checkMaxRequestAllowed : Bool
  /-- `CONFIG_USB_PD_DPS` -/
  dps : Bool
  /-- `CONFIG_USB_PD_EPR` -/
  epr : Bool
  /-- `CONFIG_USB_PD_GIVE_BACK`, with `PD_MIN_CURRENT_MA` and `PD_MIN_POWER_MW` -/
  giveBack : Option (Nat × Nat)
  pdOperatingPowerMw : Int

/-- `PDO_MAX_OBJECTS`, with the extended power range -/
def pdoMaxObjects : Nat := 11

/-- What the other modules answer for a port, and the VDO of the device -/
structure Inputs where
  port : Nat
  /-- `pd_get_src_caps` -/
  srcCaps : List (BitVec 32)
  srcCaps_ne_nil : srcCaps ≠ []
  srcCaps_le : srcCaps.length ≤ pdoMaxObjects
  /-- `charge_manager_get_selected_charge_port` -/
  selectedChargePort : Option Nat
  /-- `pd_is_max_request_allowed` -/
  isMaxRequestAllowed : Bool
  /-- `pd_get_max_voltage` -/
  maxVoltage : BitVec 32
  /-- `dps_get_dynamic_voltage`, where `dps_is_enabled` -/
  dynamicVoltage : Option (BitVec 32)
  /-- `pd_get_usb_comm_capable` -/
  usbCommCapable : Bool
  /-- The power role is `PD_ROLE_SINK`. -/
  sink : Bool
  vpdVdo : BitVec 32

/-- What `pd_build_request` writes. -/
structure Request where
  rdo : BitVec 32
  ma : Nat
  mv : Nat

def rdoGiveBack : BitVec 32 := 1 <<< 27
def rdoCapMismatch : BitVec 32 := 1 <<< 26
def rdoCommCap : BitVec 32 := 1 <<< 25
def rdoNoSuspend : BitVec 32 := 1 <<< 24
def rdoEprModeCapable : BitVec 32 := 1 <<< 22

/-- `RDO_FIXED` and `RDO_BATT`, with the operating and the maximum value in their units -/
def rdoWord (n : Nat) (op max flags : BitVec 32) : BitVec 32 :=
  putField 28 0xf (BitVec.ofNat 32 n) ||| flags ||| putField 10 0x3ff op ||| putField 0 0x3ff max

def rdoFixed (n opMa maxMa : Nat) (flags : BitVec 32) : BitVec 32 :=
  rdoWord n (BitVec.ofNat 32 (opMa / 10)) (BitVec.ofNat 32 (maxMa / 10)) flags

def rdoBatt (n : Nat) (opMw maxMw : Int) (flags : BitVec 32) : BitVec 32 :=
  rdoWord n (BitVec.ofInt 32 (opMw.tdiv 250)) (BitVec.ofInt 32 (maxMw.tdiv 250)) flags

def rdoPos (rdo : BitVec 32) : Nat := wordField 28 0xf rdo
def rdoOperating (rdo : BitVec 32) : Nat := wordField 10 0x3ff rdo
def rdoMaximum (rdo : BitVec 32) : Nat := wordField 0 0x3ff rdo

/-- `VPD_VDO_MAX_VBUS`, `VPD_VDO_VBUS_IMP` and `VPD_VDO_GND_IMP` -/
def vpdVdoMaxVbus (vdo : BitVec 32) : Nat := wordField 15 0x3 vdo
def vpdVdoVbusImp (vdo : BitVec 32) : Nat := wordField 7 0x3f vdo
def vpdVdoGndImp (vdo : BitVec 32) : Nat := wordField 1 0x3f vdo

/-- `vpd_vdo > 0`, of an `int32_t` -/
def hasCtvpd (vdo : BitVec 32) : Bool := decide (0 < vdo.toInt)

/-- The current that the impedance allows, for a cable of 5 A or of 3 A -/
def vpdCurrent (vdo : BitVec 32) (ma : Nat) : Nat :=
  let dcr := vpdVdoVbusImp vdo * 2 + vpdVdoGndImp vdo
  if 3000 < ma then 750000 / (150 + dcr) else 750000 / (250 + dcr)

/-- `max_vbus` -/
def vpdMaxVbus (vdo : BitVec 32) : Nat := 20000 + vpdVdoMaxVbus vdo * 10000

/-- `*ma` and `*mv` after the adjustment -/
def adjustForVpd (vdo : BitVec 32) (p : Power) : Nat × Nat :=
  if hasCtvpd vdo then
    -- the current is replaced, the voltage is only lowered
    (vpdCurrent vdo p.ma, if vpdMaxVbus vdo < p.maxMv then vpdMaxVbus vdo else p.maxMv)
  else (p.ma, p.maxMv)

/-! ## The request -/

section Build

variable (cfg : RequestConfig) (e : Inputs)

def chargingAllowed : Bool :=
  !cfg.chargeManager || e.selectedChargePort == some e.port || e.selectedChargePort == none

def maxRequestAllowed : Bool :=
  !cfg.checkMaxRequestAllowed || e.isMaxRequestAllowed

def maxRequestMv : BitVec 32 :=
  match cfg.dps, e.dynamicVoltage with
  | true, some mv => if mv < e.maxVoltage then mv else e.maxVoltage
  | _, _ => e.maxVoltage

def pdoIndex : Nat :=
  if chargingAllowed cfg e && maxRequestAllowed cfg e then
    pdFindPdoIndex cfg.toConfig (maxRequestMv cfg e).toInt e.srcCaps
  -- the first object is vSafe5V
  else 0

/-- `pdo` -/
def requestedPdo : BitVec 32 := e.srcCaps.getD (pdoIndex cfg e) 0

/-- `uw`, of which an `int` holds the low 32 bits -/
def requestUw (ma mv : Nat) : Int := (BitVec.ofNat 32 (ma * mv)).toInt

def requestFlags (uw : Int) : BitVec 32 :=
  (if uw < 1000 * cfg.pdOperatingPowerMw then rdoCapMismatch else 0) |||
    (if cfg.epr then rdoEprModeCapable else 0) |||
    (if cfg.giveBack.isSome then rdoGiveBack else 0)

def commFlags : BitVec 32 :=
  if e.usbCommCapable then rdoCommCap ||| (if e.sink then rdoNoSuspend else 0) else 0

def pdBuildRequest : Request :=
  let pdo := requestedPdo cfg e
  let (ma, mv) := adjustForVpd e.vpdVdo (pdExtractPdoPower cfg.toConfig pdo)
  let uw := requestUw ma mv
  let flags := requestFlags cfg uw
  let rdo :=
    if pdoType pdo = .battery then
      -- with give back, the second field is the minimum operating power
      let maxOrMinMw : Int := match cfg.giveBack with
        | some (_, minMw) => minMw
        | none => uw.tdiv 1000
      rdoBatt (pdoIndex cfg e + 1) (uw.tdiv 1000) maxOrMinMw flags
    else
      let maxOrMinMa := match cfg.giveBack with
        | some (minMa, _) => minMa
        | none => ma
      rdoFixed (pdoIndex cfg e + 1) ma maxOrMinMa flags
  ⟨rdo ||| commFlags e, ma, mv⟩

end Build

/-! ## Requests within the offer -/

def offered (pdo : BitVec 32) : Nat :=
  match pdoType pdo with
  | .fixed => pdoFixedCurrent pdo
  | .augmented => pdoAugMaxCurrent pdo
  | .variable => pdoVarMaxCurrent pdo
  | .battery => pdoBattMaxPower pdo

/-- The unit of the current or the power in a request -/
def rdoUnit (pdo : BitVec 32) : Nat := if pdoType pdo = .battery then 250 else 10

/-- The request asks an object of the list for no more than it offers, and a device only lowers what
is asked for. -/
structure WithinOffer (cfg : RequestConfig) (e : Inputs) (r : Request) (pdo : BitVec 32) : Prop where
  position : 1 ≤ rdoPos r.rdo ∧ e.srcCaps[rdoPos r.rdo - 1]? = some pdo
  operating : rdoOperating r.rdo * rdoUnit pdo ≤ offered pdo
  /-- With give back, the field has a minimum. -/
  maximum : cfg.giveBack = none → rdoMaximum r.rdo * rdoUnit pdo ≤ offered pdo
  voltage : r.mv ≤ (pdExtractPdoPower cfg.toConfig pdo).maxMv
  lowered : hasCtvpd e.vpdVdo = true → r.ma ≤ (pdExtractPdoPower cfg.toConfig pdo).ma

/-- The power of a request, in the units and the bits of a battery request -/
def battUnits (ma mv : Nat) : Nat :=
  (BitVec.ofInt 32 (((requestUw ma mv).tdiv 1000).tdiv 250) &&& 0x3ff).toNat

/-- The device allows no more current than was extracted, and the power that this current makes at
the maximum voltage is less than one unit above the power of a battery object. -/
structure AsksLess (cfg : RequestConfig) (e : Inputs) (pdo : BitVec 32) : Prop where
  current : hasCtvpd e.vpdVdo = true →
    vpdCurrent e.vpdVdo (pdExtractPdoPower cfg.toConfig pdo).ma ≤
      (pdExtractPdoPower cfg.toConfig pdo).ma
  power : pdoType pdo = .battery →
    (adjustForVpd e.vpdVdo (pdExtractPdoPower cfg.toConfig pdo)).1 *
        (adjustForVpd e.vpdVdo (pdExtractPdoPower cfg.toConfig pdo)).2 <
      1000 * (pdoBattMaxPower pdo + 250)

variable {cfg : RequestConfig} {e : Inputs}

/-! ## The fields of a request -/

/-- The bits that are not those of a flag: the position, and both values -/
def valueMask : BitVec 32 := 0xf00fffff

def IsFlags (f : BitVec 32) : Prop := f &&& valueMask = 0

theorem IsFlags.or {f g : BitVec 32} (hf : IsFlags f) (hg : IsFlags g) : IsFlags (f ||| g) := by
  rw [IsFlags, BitVec.and_or_distrib_right, show f &&& valueMask = 0 from hf,
    show g &&& valueMask = 0 from hg]
  exact BitVec.or_self

theorem isFlags_ite {p : Prop} [Decidable p] {f : BitVec 32} (hf : IsFlags f) :
    IsFlags (if p then f else 0) := by
  split
  · exact hf
  · exact BitVec.zero_and

theorem isFlags_requestFlags (cfg : RequestConfig) (uw : Int) : IsFlags (requestFlags cfg uw) := by
  have hmismatch : IsFlags rdoCapMismatch := rfl
  have hepr : IsFlags rdoEprModeCapable := rfl
  have hgive : IsFlags rdoGiveBack := rfl
  exact ((isFlags_ite hmismatch).or (isFlags_ite hepr)).or (isFlags_ite hgive)

theorem isFlags_commFlags (e : Inputs) : IsFlags (commFlags e) := by
  have hcomm : IsFlags rdoCommCap := rfl
  have hsuspend : IsFlags rdoNoSuspend := rfl
  exact isFlags_ite (hcomm.or (isFlags_ite hsuspend))

theorem getField_flags {s : Nat} {m f : BitVec 32} (hfits : FitsAt s m) (hf : IsFlags f)
    (h : valueMask &&& (m <<< s) = m <<< s) : getField s m f = 0 :=
  getField_eq_zero_of_mask hfits hf h

section Word

variable {n : Nat} {op max f g : BitVec 32}

theorem rdoPos_rdoWord (hf : IsFlags f) (hg : IsFlags g) :
    rdoPos (rdoWord n op max f ||| g) = n % 16 := by
  have hfits : FitsAt 28 (0xf : BitVec 32) := rfl
  rw [rdoPos, wordField, rdoWord, getField_or, getField_or, getField_or, getField_or,
    getField_putField hfits, getField_flags hfits hf rfl, getField_flags hfits hg rfl,
    getField_putField_of_disjoint hfits rfl, getField_putField_of_disjoint hfits rfl]
  simp only [BitVec.ofNat_eq_ofNat, BitVec.or_zero, BitVec.toNat_and, BitVec.toNat_ofNat]
  rw [show 15 % 2 ^ 32 = 2 ^ 4 - 1 from rfl, Nat.and_two_pow_sub_one_eq_mod]
  exact Nat.mod_mod_of_dvd n (by decide)

theorem rdoOperating_rdoWord (hf : IsFlags f) (hg : IsFlags g) :
    rdoOperating (rdoWord n op max f ||| g) = (op &&& 0x3ff).toNat := by
  have hfits : FitsAt 10 (0x3ff : BitVec 32) := rfl
  rw [rdoOperating, wordField, rdoWord, getField_or, getField_or, getField_or, getField_or,
    getField_putField hfits, getField_flags hfits hf rfl, getField_flags hfits hg rfl,
    getField_putField_of_disjoint hfits rfl, getField_putField_of_disjoint hfits rfl]
  simp only [BitVec.ofNat_eq_ofNat, BitVec.or_zero, BitVec.zero_or]

theorem rdoMaximum_rdoWord (hf : IsFlags f) (hg : IsFlags g) :
    rdoMaximum (rdoWord n op max f ||| g) = (max &&& 0x3ff).toNat := by
  have hfits : FitsAt 0 (0x3ff : BitVec 32) := rfl
  rw [rdoMaximum, wordField, rdoWord, getField_or, getField_or, getField_or, getField_or,
    getField_putField hfits, getField_flags hfits hf rfl, getField_flags hfits hg rfl,
    getField_putField_of_disjoint hfits rfl, getField_putField_of_disjoint hfits rfl]
  simp only [BitVec.ofNat_eq_ofNat, BitVec.or_zero, BitVec.zero_or]

theorem ofNat_and_mask_le (k : Nat) : (BitVec.ofNat 32 k &&& 0x3ff).toNat ≤ k := by
  rw [BitVec.toNat_and, BitVec.toNat_ofNat]
  calc
    (k % 2 ^ 32) &&& _ ≤ k % 2 ^ 32 := Nat.and_le_left
    _ ≤ k := Nat.mod_le _ _

end Word

/-! ## The object of a request -/

theorem pdoIndex_lt (cfg : RequestConfig) (e : Inputs) : pdoIndex cfg e < e.srcCaps.length := by
  rw [pdoIndex]
  split
  · exact pdFindPdoIndex_lt _ _ e.srcCaps_ne_nil
  · exact List.length_pos_of_ne_nil e.srcCaps_ne_nil

theorem getElem?_pdoIndex (cfg : RequestConfig) (e : Inputs) :
    e.srcCaps[pdoIndex cfg e]? = some (requestedPdo cfg e) := by
  rw [requestedPdo, List.getD_eq_getElem?_getD, List.getElem?_eq_getElem (pdoIndex_lt cfg e)]
  rfl

theorem pdBuildRequest_rdo (cfg : RequestConfig) (e : Inputs) :
    ∃ op max f g, IsFlags f ∧ IsFlags g ∧
      (pdBuildRequest cfg e).rdo = rdoWord (pdoIndex cfg e + 1) op max f ||| g := by
  rw [pdBuildRequest]
  dsimp only
  split
  · exact ⟨_, _, _, _, isFlags_requestFlags cfg _, isFlags_commFlags e, rfl⟩
  · exact ⟨_, _, _, _, isFlags_requestFlags cfg _, isFlags_commFlags e, rfl⟩

theorem pdBuildRequest_position (cfg : RequestConfig) (e : Inputs) :
    rdoPos (pdBuildRequest cfg e).rdo = pdoIndex cfg e + 1 := by
  obtain ⟨op, max, f, g, hf, hg, hrdo⟩ := pdBuildRequest_rdo cfg e
  have hlt := pdoIndex_lt cfg e
  have hle := e.srcCaps_le
  rw [pdoMaxObjects] at hle
  rw [hrdo, rdoPos_rdoWord hf hg]
  exact Nat.mod_eq_of_lt (by omega)

theorem pdBuildRequest_battery (hbatt : pdoType (requestedPdo cfg e) = .battery) :
    rdoOperating (pdBuildRequest cfg e).rdo =
        battUnits (pdBuildRequest cfg e).ma (pdBuildRequest cfg e).mv ∧
      (cfg.giveBack = none → rdoMaximum (pdBuildRequest cfg e).rdo =
        battUnits (pdBuildRequest cfg e).ma (pdBuildRequest cfg e).mv) := by
  rw [pdBuildRequest]
  dsimp only
  rw [if_pos hbatt, rdoBatt]
  constructor
  · exact rdoOperating_rdoWord (isFlags_requestFlags cfg _) (isFlags_commFlags e)
  · intro hgive
    rw [rdoMaximum_rdoWord (isFlags_requestFlags cfg _) (isFlags_commFlags e), hgive]
    rfl

theorem pdBuildRequest_other (hbatt : pdoType (requestedPdo cfg e) ≠ .battery) :
    rdoOperating (pdBuildRequest cfg e).rdo * 10 ≤ (pdBuildRequest cfg e).ma ∧
      (cfg.giveBack = none →
        rdoMaximum (pdBuildRequest cfg e).rdo * 10 ≤ (pdBuildRequest cfg e).ma) := by
  have hround : ∀ k : Nat, (BitVec.ofNat 32 (k / 10) &&& 0x3ff).toNat * 10 ≤ k := by
    intro k
    have hle := ofNat_and_mask_le (k / 10)
    omega
  rw [pdBuildRequest]
  dsimp only
  rw [if_neg hbatt, rdoFixed]
  constructor
  · rw [rdoOperating_rdoWord (isFlags_requestFlags cfg _) (isFlags_commFlags e)]
    exact hround _
  · intro hgive
    rw [rdoMaximum_rdoWord (isFlags_requestFlags cfg _) (isFlags_commFlags e), hgive]
    exact hround _

theorem adjustForVpd_mv_le (vdo : BitVec 32) (p : Power) : (adjustForVpd vdo p).2 ≤ p.maxMv := by
  rw [adjustForVpd]
  split
  · dsimp only
    split
    · next hlt => exact hlt.le
    · exact le_refl _
  · exact le_refl _

theorem adjustForVpd_ma_le_iff (vdo : BitVec 32) (p : Power) :
    (adjustForVpd vdo p).1 ≤ p.ma ↔ (hasCtvpd vdo = true → vpdCurrent vdo p.ma ≤ p.ma) := by
  rw [adjustForVpd]
  cases hasCtvpd vdo with
  | true => exact ⟨fun h _ => h, fun h => h rfl⟩
  | false => exact ⟨fun _ h => absurd h Bool.false_ne_true, fun _ => le_refl p.ma⟩

theorem extract_ma_le_offered {pdo : BitVec 32} (hbatt : pdoType pdo ≠ .battery) :
    (pdExtractPdoPower cfg.toConfig pdo).ma ≤ offered pdo := by
  have hle := extract_ma_le cfg.toConfig pdo
  rw [pdoMaxMa] at hle
  rw [offered]
  cases htype : pdoType pdo with
  | fixed => rwa [htype] at hle
  | battery => exact absurd htype hbatt
  | «variable» => rwa [htype] at hle
  | augmented => rwa [htype] at hle

theorem WithinOffer.pdo_eq {pdo : BitVec 32} (h : WithinOffer cfg e (pdBuildRequest cfg e) pdo) :
    pdo = requestedPdo cfg e := by
  have hget := h.position.2
  rw [pdBuildRequest_position, Nat.add_sub_cancel, getElem?_pdoIndex] at hget
  exact (Option.some.inj hget).symm

theorem AsksLess.ma_le (h : AsksLess cfg e (requestedPdo cfg e)) :
    (pdBuildRequest cfg e).ma ≤ (pdExtractPdoPower cfg.toConfig (requestedPdo cfg e)).ma :=
  (adjustForVpd_ma_le_iff e.vpdVdo (pdExtractPdoPower cfg.toConfig (requestedPdo cfg e))).mpr
    h.current

/-! ## The units of a battery request -/

theorem adjustForVpd_ma_le (vdo : BitVec 32) {p : Power} (hp : p.ma ≤ 5000) :
    (adjustForVpd vdo p).1 ≤ 5000 := by
  rw [adjustForVpd]
  split
  · show vpdCurrent vdo p.ma ≤ 5000
    rw [vpdCurrent]
    split
    · calc
        750000 / (150 + _) ≤ 750000 / 150 := Nat.div_le_div_left (Nat.le_add_right _ _) (by decide)
        _ = 5000 := rfl
    · calc
        750000 / (250 + _) ≤ 750000 / 250 := Nat.div_le_div_left (Nat.le_add_right _ _) (by decide)
        _ ≤ 5000 := by decide
  · exact hp

theorem extract_ma_le_max (cfg : RequestConfig) (pdo : BitVec 32) :
    (pdExtractPdoPower cfg.toConfig pdo).ma ≤ 5000 := by
  refine le_trans ?_ cfg.pdMaxCurrentMa_le
  show (if (pdoVoltages pdo).1 = 0 then Power.mk 0 0 0 else _).ma ≤ _
  split
  · exact Nat.zero_le _
  · exact Nat.min_le_right _ _

theorem extract_maxMv_le_of_battery {pdo : BitVec 32} (hbatt : pdoType pdo = .battery) :
    (pdExtractPdoPower cfg.toConfig pdo).maxMv ≤ 51150 := by
  rw [extract_maxMv, pdoVoltages, hbatt]
  show wordField 20 0x3ff pdo * 50 ≤ 51150
  have hfield : wordField 20 0x3ff pdo ≤ 0x3ff := toNat_getField_le
  omega

theorem battUnits_eq {ma mv : Nat} (hma : ma ≤ 5000) (hmv : mv ≤ 51150) :
    battUnits ma mv = ma * mv / 250000 := by
  have hproduct : ma * mv ≤ 5000 * 51150 := Nat.mul_le_mul hma hmv
  have huw : requestUw ma mv = (ma * mv : Nat) := by
    rw [requestUw, BitVec.toInt_eq_toNat_of_lt, BitVec.toNat_ofNat, Nat.mod_eq_of_lt (by omega)]
    rw [BitVec.toNat_ofNat, Nat.mod_eq_of_lt (by omega)]
    omega
  have hunits : ((requestUw ma mv).tdiv 1000).tdiv 250 = (ma * mv / 1000 / 250 : Nat) := by
    rw [huw, Int.ofNat_tdiv, Int.ofNat_tdiv]
    rfl
  rw [battUnits, hunits, Nat.div_div_eq_div_mul, BitVec.ofInt_natCast, BitVec.toNat_and,
    BitVec.toNat_ofNat, Nat.mod_eq_of_lt (by omega)]
  show ma * mv / 250000 &&& 2 ^ 10 - 1 = _
  rw [Nat.and_two_pow_sub_one_eq_mod, Nat.mod_eq_of_lt (by omega)]

theorem units_le_iff (n w : Nat) : n / 250000 * 250 ≤ w * 250 ↔ n < 1000 * (w * 250 + 250) := by
  omega

/-- What is requested of a battery object is within its power when the product is less than one unit
above it. -/
theorem battUnits_le_iff (hbatt : pdoType (requestedPdo cfg e) = .battery) :
    battUnits (pdBuildRequest cfg e).ma (pdBuildRequest cfg e).mv * 250 ≤
        pdoBattMaxPower (requestedPdo cfg e) ↔
      (pdBuildRequest cfg e).ma * (pdBuildRequest cfg e).mv <
        1000 * (pdoBattMaxPower (requestedPdo cfg e) + 250) := by
  have hma : (pdBuildRequest cfg e).ma ≤ 5000 := adjustForVpd_ma_le _ (extract_ma_le_max cfg _)
  have hmv : (pdBuildRequest cfg e).mv ≤ 51150 :=
    (adjustForVpd_mv_le _ _).trans (extract_maxMv_le_of_battery hbatt)
  have hpower : pdoBattMaxPower (requestedPdo cfg e) =
      wordField 0 0x3ff (requestedPdo cfg e) * 250 := rfl
  rw [battUnits_eq hma hmv, hpower]
  exact units_le_iff _ _

/-- A field of the request is within the offer, be it the power asked of a battery object or the
current asked of another one. -/
theorem AsksLess.field_le (h : AsksLess cfg e (requestedPdo cfg e)) {field : Nat}
    (hpower : pdoType (requestedPdo cfg e) = .battery →
      field = battUnits (pdBuildRequest cfg e).ma (pdBuildRequest cfg e).mv)
    (hcurrent : pdoType (requestedPdo cfg e) ≠ .battery →
      field * 10 ≤ (pdBuildRequest cfg e).ma) :
    field * rdoUnit (requestedPdo cfg e) ≤ offered (requestedPdo cfg e) := by
  by_cases hbatt : pdoType (requestedPdo cfg e) = .battery
  · rw [hpower hbatt, rdoUnit, if_pos hbatt, offered, hbatt]
    exact (battUnits_le_iff hbatt).mpr (h.power hbatt)
  · rw [rdoUnit, if_neg hbatt]
    calc
      field * 10 ≤ (pdBuildRequest cfg e).ma := hcurrent hbatt
      _ ≤ (pdExtractPdoPower cfg.toConfig (requestedPdo cfg e)).ma := h.ma_le
      _ ≤ offered (requestedPdo cfg e) := extract_ma_le_offered hbatt

/-! ## The main result -/

/-- A request is within the offer exactly where the device allows no more than the object, and the
power made of the current and the maximum voltage is within that of a battery object. -/
theorem withinOffer_iff (cfg : RequestConfig) (e : Inputs) :
    (∃ pdo, WithinOffer cfg e (pdBuildRequest cfg e) pdo) ↔
      AsksLess cfg e (requestedPdo cfg e) := by
  have hma : (pdBuildRequest cfg e).ma =
      (adjustForVpd e.vpdVdo (pdExtractPdoPower cfg.toConfig (requestedPdo cfg e))).1 := rfl
  have hmv : (pdBuildRequest cfg e).mv =
      (adjustForVpd e.vpdVdo (pdExtractPdoPower cfg.toConfig (requestedPdo cfg e))).2 := rfl
  have hposition := pdBuildRequest_position cfg e
  constructor
  · rintro ⟨pdo, h⟩
    -- the position is that of the requested object
    have hpdo := h.pdo_eq
    subst hpdo
    refine ⟨fun hvpd => ?_, fun hbatt => ?_⟩
    · have hle := h.lowered hvpd
      rw [hma] at hle
      exact (adjustForVpd_ma_le_iff _ _).mp hle hvpd
    · have hle := h.operating
      rw [(pdBuildRequest_battery hbatt).1, rdoUnit, if_pos hbatt, offered, hbatt] at hle
      exact (battUnits_le_iff hbatt).mp hle
  · intro h
    refine ⟨requestedPdo cfg e, ⟨?_, ?_⟩, ?_, ?_, ?_, ?_⟩
    · rw [hposition]
      exact Nat.le_add_left 1 _
    · rw [hposition, Nat.add_sub_cancel, getElem?_pdoIndex]
    · exact h.field_le (fun hbatt => (pdBuildRequest_battery hbatt).1)
        fun hbatt => (pdBuildRequest_other hbatt).1
    · intro hgive
      exact h.field_le (fun hbatt => (pdBuildRequest_battery hbatt).2 hgive)
        fun hbatt => (pdBuildRequest_other hbatt).2 hgive
    · rw [hmv]
      exact adjustForVpd_mv_le _ _
    · exact fun _ => h.ma_le

/-! ## A charge-through device, and a battery -/

def defaultRequestConfig : RequestConfig where
  toConfig := defaultConfig
  pdMaxCurrentMa_le := show 3000 ≤ 5000 by decide
  chargeManager := true
  checkMaxRequestAllowed := false
  dps := false
  epr := false
  giveBack := none
  pdOperatingPowerMw := 15000

/-- The port that is charged from, and a source with one object besides that of 5 V and 500 mA -/
def sourceInputs (pdo vpdVdo : BitVec 32) : Inputs where
  port := 0
  srcCaps := [pdoFixed 5000 500, pdo]
  srcCaps_ne_nil := List.cons_ne_nil _ _
  srcCaps_le := show 2 ≤ 11 by decide
  selectedChargePort := some 0
  isMaxRequestAllowed := true
  maxVoltage := 20000
  dynamicVoltage := none
  usbCommCapable := false
  sink := true
  vpdVdo := vpdVdo

/-- A VDO with charge through and impedances of 32 and 20 milliohms -/
def ctvpdVdo : BitVec 32 := 16 <<< 7 ||| 20 <<< 1 ||| 1

/-- Through the device, 2480 mA are requested of an object with 1000 mA; and without a device 60 W
are requested of a battery object with 15 W. -/
theorem not_withinOffer_raised :
    ((pdBuildRequest defaultRequestConfig (sourceInputs (pdoFixed 9000 1000) ctvpdVdo)).ma = 2483 ∧
      rdoOperating (pdBuildRequest defaultRequestConfig
        (sourceInputs (pdoFixed 9000 1000) ctvpdVdo)).rdo = 248 ∧
      ¬∃ pdo, WithinOffer defaultRequestConfig (sourceInputs (pdoFixed 9000 1000) ctvpdVdo)
        (pdBuildRequest defaultRequestConfig (sourceInputs (pdoFixed 9000 1000) ctvpdVdo)) pdo) ∧
    rdoOperating (pdBuildRequest defaultRequestConfig
        (sourceInputs (pdoBatt 5000 20000 15000) 0)).rdo = 240 ∧
      ¬∃ pdo, WithinOffer defaultRequestConfig (sourceInputs (pdoBatt 5000 20000 15000) 0)
        (pdBuildRequest defaultRequestConfig (sourceInputs (pdoBatt 5000 20000 15000) 0)) pdo := by
  refine ⟨⟨by decide +kernel, by decide +kernel, ?_⟩, by decide +kernel, ?_⟩
  · rintro ⟨pdo, h⟩
    have hpdo := h.pdo_eq
    subst hpdo
    exact absurd (h.lowered (by decide +kernel)) (by decide +kernel)
  · rintro ⟨pdo, h⟩
    have hpdo := h.pdo_eq
    subst hpdo
    exact absurd h.operating (by decide +kernel)

end ChromiumEc.Usbc.DualRole
