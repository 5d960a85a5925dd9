import ChromiumEc.Lib.Reach
import Mathlib.Tactic.SplitIfs
import Mathlib.Algebra.Group.Nat.Defs

/-!
# UpdateFw — firmware update over USB

`update_fw.c` for any board: with or without a touchpad region and its table of hashes, and with
any flash driver.  Offsets and sizes are 32 bits wide, so the sum of two of them wraps around.
-/

namespace ChromiumEc.Update

/-! ## Constants and platform -/

/-- `enum ec_image`. -/
inductive EcImage
  | unknown
  | ro
  | rw
  | roB
  | rwB
  deriving DecidableEq, Repr

inductive UpdateCode
  | success
  | badAddr
  | eraseFailure
  | dataError
  | writeFailure
  | verifyError
  | genError
  | mallocError
  | rollbackError
  | rateLimitError
  | rwsigBusy
  deriving DecidableEq, Repr

/-- `uint32_t` addition. -/
def addU32 (a b : Nat) : Nat :=
  (a + b) % 2 ^ 32

/-- A range of the flash: the bytes `base`, …, `top - 1`. -/
structure Section where
  base : Nat
  top : Nat
  base_le : base ≤ top
  top_lt : top < 2 ^ 32
  deriving DecidableEq

/-- The hashes of the touchpad firmware of a board with `CONFIG_TOUCHPAD_HASH_FW`. -/
structure TouchpadFwHash where
  chunks : Nat
  hashes : Nat → List UInt8
  sha256 : List UInt8 → List UInt8

/-- The virtual region of a board with `CONFIG_TOUCHPAD_VIRTUAL_OFF`. -/
structure TouchpadRegion where
  virtualOff : Nat
  virtualSize : Nat
  hashFw : Option TouchpadFwHash

/-- The build options of a board and what `update_fw.c` asks other modules for. -/
structure Platform where
  image : EcImage
  ro : Section
  rw : Section
  updatePduSize : Nat
  touchpad : Option TouchpadRegion
  flashProtect : Nat
  version : EcImage → Option (List UInt8)
  /-- `rollback_get_minimum_version` with `CONFIG_ROLLBACK` -/
  minRollback : Option Int
  /-- the key version with `CONFIG_RWSIG_TYPE_RWSIG` -/
  keyVersion : Option Nat
  /-- RWSIG is still running -/
  rwsigInProgress : Bool

/-- A flash driver and a touchpad: what a call makes of their state, and whether it returns
`EC_SUCCESS`. -/
structure Drivers (σ : Type*) where
  flashPhysicalErase : Nat → Nat → σ → Bool × σ
  flashPhysicalWrite : Nat → List UInt8 → σ → Bool × σ
  touchpadUpdateWrite : Nat → List UInt8 → σ → Bool × σ
  /-- the byte at an offset into the memory-mapped flash -/
  mapped : σ → Nat → UInt8

inductive FlashOp
  | erase (off size : Nat)
  | write (off : Nat) (data : List UInt8)
  | touchpadWrite (off : Nat) (data : List UInt8)
  deriving DecidableEq

/-! ## PDUs and state -/

/-- A PDU: `struct update_command` and the payload.  Its size is a `size_t` of 32 bits. -/
abbrev Pdu := { body : List UInt8 // body.length < 2 ^ 32 }

/-- `sizeof(struct update_command)`. -/
def updateCommandSize : Nat :=
  8

/-- `be32toh` of four bytes. -/
def be32 (bytes : List UInt8) : Nat :=
  bytes.foldl (fun n b => n * 256 + b.toNat) 0

namespace Pdu

def blockBase (p : Pdu) : Nat :=
  be32 ((p.val.drop 4).take 4)

def data (p : Pdu) : List UInt8 :=
  p.val.drop updateCommandSize

def bodySize (p : Pdu) : Nat :=
  p.val.length - updateCommandSize

def IsStart (p : Pdu) : Prop :=
  updateCommandSize ≤ p.val.length ∧ p.blockBase = 0 ∧ p.bodySize = 0

instance : DecidablePred IsStart := fun p =>
  inferInstanceAs
    (Decidable (updateCommandSize ≤ p.val.length ∧ p.blockBase = 0 ∧ p.bodySize = 0))

end Pdu

/-- `struct first_response_pdu` with its common header. -/
structure FirstResponsePdu where
  returnValue : UpdateCode
  headerTypeCommon : Bool
  protocolVersion : Nat
  maximumPduSize : Nat
  flashProtection : Nat
  offset : Nat
  version : List UInt8
  minRollback : Int
  keyVersion : Nat
  deriving DecidableEq

inductive Response
  | code (c : UpdateCode)
  | first (rpdu : FirstResponsePdu)
  deriving DecidableEq

/-- `update_section`, the drivers' state and the calls made so far, newest first. -/
structure Updater (σ : Type*) where
  baseOffset : Nat
  topOffset : Nat
  drivers : σ
  ops : List FlashOp

variable {σ : Type*}

def Updater.boot (s : σ) : Updater σ where
  baseOffset := 0
  topOffset := 0
  drivers := s
  ops := []

/-! ## The update functions -/

section Update

variable (pf : Platform) (dr : Drivers σ)

def isTouchpadBlock (blockOffset bodySize : Nat) : Bool :=
  match pf.touchpad with
  | none => false
  | some tp =>
    tp.virtualOff ≤ blockOffset &&
      addU32 blockOffset bodySize ≤ tp.virtualOff + tp.virtualSize

/-- The block lies in `update_section`, as far as 32-bit arithmetic tells. -/
def inUpdateSection (blockOffset bodySize : Nat) (u : Updater σ) : Bool :=
  u.baseOffset != u.topOffset && u.baseOffset ≤ blockOffset &&
    addU32 blockOffset bodySize ≤ u.topOffset

def physicalErase (off size : Nat) (u : Updater σ) : Bool × Updater σ :=
  let r := dr.flashPhysicalErase off size u.drivers
  (r.1, { u with drivers := r.2, ops := .erase off size :: u.ops })

def physicalWrite (off : Nat) (data : List UInt8) (u : Updater σ) : Bool × Updater σ :=
  let r := dr.flashPhysicalWrite off data u.drivers
  (r.1, { u with drivers := r.2, ops := .write off data :: u.ops })

def touchpadWrite (off : Nat) (data : List UInt8) (u : Updater σ) : Bool × Updater σ :=
  let r := dr.touchpadUpdateWrite off data u.drivers
  (r.1, { u with drivers := r.2, ops := .touchpadWrite off data :: u.ops })

/-- `check_update_chunk`: the first chunk of the section erases it. -/
def checkUpdateChunk (blockOffset bodySize : Nat) (u : Updater σ) : UpdateCode × Updater σ :=
  if inUpdateSection blockOffset bodySize u then
    if blockOffset = u.baseOffset then
      let r := physicalErase dr u.baseOffset (u.topOffset - u.baseOffset) u
      if r.1 then (.success, r.2) else (.eraseFailure, r.2)
    else (.success, u)
  else if isTouchpadBlock pf blockOffset bodySize then (.success, u)
  else (.badAddr, u)

/-- `contents_allowed`: a touchpad block has to hash to the entry of its chunk. -/
def contentsAllowed (blockOffset bodySize : Nat) (data : List UInt8) : Bool :=
  match pf.touchpad with
  | none => true
  | some tp =>
    match tp.hashFw with
    | none => true
    | some fw =>
      if isTouchpadBlock pf blockOffset bodySize then
        let fwOffset := blockOffset - tp.virtualOff
        let chunk := fwOffset / pf.updatePduSize
        decide (chunk < fw.chunks) && fwOffset % pf.updatePduSize == 0 &&
          fw.sha256 data == fw.hashes chunk
      else true

/-- `fw_update_start`: the section to update is that of the image that is not running. -/
def fwUpdateStart (rpdu : FirstResponsePdu) (u : Updater σ) : FirstResponsePdu × Updater σ :=
  let start (other : EcImage) (sect : Section) : FirstResponsePdu × Updater σ :=
    ({ rpdu with
        headerTypeCommon := true
        returnValue := if pf.rwsigInProgress then .rwsigBusy else rpdu.returnValue
        maximumPduSize := pf.updatePduSize
        flashProtection := pf.flashProtect
        offset := sect.base
        version := (pf.version other).getD rpdu.version
        minRollback := pf.minRollback.getD (-1)
        keyVersion := pf.keyVersion.getD rpdu.keyVersion },
      { u with baseOffset := sect.base, topOffset := sect.top })
  match pf.image with
  | .ro => start .rw pf.rw
  | .rw => start .ro pf.ro
  | _ => ({ rpdu with headerTypeCommon := true, returnValue := .genError }, u)

/-- The response structure before `fw_update_start`: zeros and the protocol version. -/
def blankResponse : FirstResponsePdu where
  returnValue := .success
  headerTypeCommon := false
  protocolVersion := 6
  maximumPduSize := 0
  flashProtection := 0
  offset := 0
  version := []
  minRollback := 0
  keyVersion := 0

/-- The flash at `off`, as far as `data` goes, reads back as `data`. -/
def readsBack (off : Nat) (data : List UInt8) (u : Updater σ) : Bool :=
  (List.range data.length).map (fun i => dr.mapped u.drivers (off + i)) == data

/-- The last part of `fw_update_command_handler`: write the block and verify it. -/
def writeBlock (blockOffset : Nat) (data : List UInt8) (u : Updater σ) :
    UpdateCode × Updater σ :=
  let r := physicalWrite dr blockOffset data u
  if !r.1 then (.writeFailure, r.2)
  else if !readsBack dr blockOffset data r.2 then (.verifyError, r.2)
  else (.success, r.2)

/-- The touchpad part of `fw_update_command_handler`. -/
def writeTouchpadBlock (tp : TouchpadRegion) (blockOffset : Nat) (data : List UInt8)
    (u : Updater σ) : UpdateCode × Updater σ :=
  let r := touchpadWrite dr (blockOffset - tp.virtualOff) data u
  if !r.1 then (.writeFailure, r.2) else (.success, r.2)

/-- `fw_update_command_handler` for a block. -/
def handleBlock (p : Pdu) (u : Updater σ) : UpdateCode × Updater σ :=
  if !contentsAllowed pf p.blockBase p.bodySize p.data then (.rollbackError, u)
  else
    let r := checkUpdateChunk pf dr p.blockBase p.bodySize u
    if r.1 ≠ .success then r
    else
      match pf.touchpad with
      | some tp =>
        if isTouchpadBlock pf p.blockBase p.bodySize then
          writeTouchpadBlock dr tp p.blockBase p.data r.2
        else writeBlock dr p.blockBase p.data r.2
      | none => writeBlock dr p.blockBase p.data r.2

def fwUpdateCommandHandler (p : Pdu) (u : Updater σ) : Response × Updater σ :=
  if p.val.length < updateCommandSize then (.code .genError, u)
  else if p.blockBase = 0 ∧ p.bodySize = 0 then
    let r := fwUpdateStart pf blankResponse u
    (.first r.1, r.2)
  else
    let r := handleBlock pf dr p u
    (.code r.1, r.2)

def step (u : Updater σ) (p : Pdu) : Updater σ :=
  (fwUpdateCommandHandler pf dr p u).2

/-! ## What one PDU may do -/

def otherSection : Option Section :=
  match pf.image with
  | .ro => some pf.rw
  | .rw => some pf.ro
  | _ => none

/-- The `size` bytes at `off` lie in the section of the image that is not running. -/
def InOtherSection (off size : Nat) : Prop :=
  ∃ sect, otherSection pf = some sect ∧ sect.base ≤ off ∧ off + size ≤ sect.top

def FlashOp.Within : FlashOp → Prop
  | .erase off size => InOtherSection pf off size
  | .write off data => InOtherSection pf off data.length
  | .touchpadWrite _ _ => True

/-- The PDU `p` is handled as an update of the other image only. -/
structure Handles (u : Updater σ) (p : Pdu) : Prop where
  ops : ∃ new, (step pf dr u p).ops = new ++ u.ops ∧ (∀ op ∈ new, op.Within pf) ∧
    (∀ off data, .write off data ∈ new → off = p.blockBase ∧ data = p.data) ∧
    ((fwUpdateCommandHandler pf dr p u).1 = .code .success →
      isTouchpadBlock pf p.blockBase p.bodySize = false →
      .write p.blockBase p.data ∈ new ∧ readsBack dr p.blockBase p.data (step pf dr u p) = true)
  updateSection : ¬ p.IsStart →
    (step pf dr u p).baseOffset = u.baseOffset ∧ (step pf dr u p).topOffset = u.topOffset

/-- A block that passes the range check of `check_update_chunk` does so without wrapping around. -/
def FitsU32 (u : Updater σ) (p : Pdu) : Prop :=
  inUpdateSection p.blockBase p.bodySize u = true → p.blockBase + p.bodySize < 2 ^ 32

instance (u : Updater σ) : DecidablePred (FitsU32 u) := fun p =>
  inferInstanceAs (Decidable
    (inUpdateSection p.blockBase p.bodySize u = true → p.blockBase + p.bodySize < 2 ^ 32))

/-- `update_section` is unset or that of the image that is not running. -/
def SectionKnown (u : Updater σ) : Prop :=
  u.baseOffset = u.topOffset ∨
    ∃ sect, otherSection pf = some sect ∧ u.baseOffset = sect.base ∧ u.topOffset = sect.top

variable {pf dr} {u : Updater σ} {p : Pdu}

theorem Pdu.length_data (p : Pdu) : p.data.length = p.bodySize := by
  simp [Pdu.data, Pdu.bodySize]

theorem inOtherSection_of_fits (hk : SectionKnown pf u) (hfits : FitsU32 u p)
    (hin : inUpdateSection p.blockBase p.bodySize u = true) :
    InOtherSection pf p.blockBase p.bodySize := by
  -- the only use of `FitsU32`: the sum of the range check is the real one
  have hsum : addU32 p.blockBase p.bodySize = p.blockBase + p.bodySize :=
    Nat.mod_eq_of_lt (hfits hin)
  simp only [inUpdateSection, Bool.and_eq_true, bne_iff_ne, decide_eq_true_eq, hsum] at hin
  obtain ⟨⟨hne, hbase⟩, htop⟩ := hin
  obtain heq | ⟨sect, hsect, hb, ht⟩ := hk
  · exact absurd heq hne
  · exact ⟨sect, hsect, hb ▸ hbase, ht ▸ htop⟩

theorem inOtherSection_erase (hk : SectionKnown pf u)
    (hin : inUpdateSection p.blockBase p.bodySize u = true) :
    InOtherSection pf u.baseOffset (u.topOffset - u.baseOffset) := by
  simp only [inUpdateSection, Bool.and_eq_true, bne_iff_ne, decide_eq_true_eq] at hin
  obtain heq | ⟨sect, hsect, hb, ht⟩ := hk
  · exact absurd heq hin.1.1
  · have hle := sect.base_le
    exact ⟨sect, hsect, by omega, by omega⟩

/-! ## One lemma for each function -/

/-- What `check_update_chunk` leaves behind. -/
structure Checked (pf : Platform) (u : Updater σ) (p : Pdu) (r : UpdateCode × Updater σ) : Prop where
  base : r.2.baseOffset = u.baseOffset
  top : r.2.topOffset = u.topOffset
  ops : ∃ new, r.2.ops = new ++ u.ops ∧ ∀ op ∈ new, op.Within pf ∧ ∀ off data, op ≠ .write off data
  success : r.1 = .success → isTouchpadBlock pf p.blockBase p.bodySize = false →
    inUpdateSection p.blockBase p.bodySize u = true

theorem checked_checkUpdateChunk (dr : Drivers σ) (hk : SectionKnown pf u) :
    Checked pf u p (checkUpdateChunk pf dr p.blockBase p.bodySize u) := by
  have hstay (c : UpdateCode) (hc : c = .success → isTouchpadBlock pf p.blockBase p.bodySize = false →
      inUpdateSection p.blockBase p.bodySize u = true) : Checked pf u p (c, u) :=
    ⟨rfl, rfl, ⟨[], rfl, by simp⟩, hc⟩
  -- the section is erased whole, whether or not the driver succeeds
  have herase (hin : inUpdateSection p.blockBase p.bodySize u = true) (c : UpdateCode) :
      Checked pf u p
        (c, (physicalErase dr u.baseOffset (u.topOffset - u.baseOffset) u).2) := by
    refine ⟨rfl, rfl, ⟨[.erase u.baseOffset (u.topOffset - u.baseOffset)], rfl, ?_⟩, fun _ _ => hin⟩
    intro op hop
    rw [List.mem_singleton.mp hop]
    exact ⟨inOtherSection_erase hk hin, by simp⟩
  unfold checkUpdateChunk
  split_ifs with hin hbase
  · simp only
    split_ifs
    · exact herase hin _
    · exact herase hin _
  · exact hstay _ fun _ _ => hin
  · rename_i htp
    exact hstay _ fun _ hno => absurd htp (by simp [hno])
  · exact hstay _ (by simp)

/-- A block was handled: at most its own bytes were written, into the other section. -/
structure BlockHandled (pf : Platform) (dr : Drivers σ) (u : Updater σ) (p : Pdu)
    (r : UpdateCode × Updater σ) : Prop where
  base : r.2.baseOffset = u.baseOffset
  top : r.2.topOffset = u.topOffset
  ops : ∃ new, r.2.ops = new ++ u.ops ∧ (∀ op ∈ new, op.Within pf) ∧
    (∀ off data, .write off data ∈ new → off = p.blockBase ∧ data = p.data) ∧
    (r.1 = .success → isTouchpadBlock pf p.blockBase p.bodySize = false →
      .write p.blockBase p.data ∈ new ∧ readsBack dr p.blockBase p.data r.2 = true)

theorem Checked.handled (tp : List FlashOp) {r r' : UpdateCode × Updater σ}
    (h : Checked pf u p r) (hbase : r'.2.baseOffset = r.2.baseOffset)
    (htop : r'.2.topOffset = r.2.topOffset) (hops : r'.2.ops = tp ++ r.2.ops)
    (htp : ∀ op ∈ tp, ∃ off data, op = .touchpadWrite off data)
    (hcode : r'.1 = .success → isTouchpadBlock pf p.blockBase p.bodySize = true) :
    BlockHandled pf dr u p r' := by
  obtain ⟨new, hnew, hquiet⟩ := h.ops
  refine ⟨hbase.trans h.base, htop.trans h.top, tp ++ new, ?_, ?_, ?_, ?_⟩
  · rw [hops, hnew, List.append_assoc]
  · intro op hop
    rcases List.mem_append.mp hop with hop | hop
    · obtain ⟨off, data, rfl⟩ := htp op hop
      trivial
    · exact (hquiet op hop).1
  · intro off data hop
    rcases List.mem_append.mp hop with hop | hop
    · obtain ⟨_, _, heq⟩ := htp _ hop
      simp at heq
    · exact absurd rfl ((hquiet _ hop).2 off data)
  · intro hs hno
    exact absurd (hcode hs) (by simp [hno])

theorem Checked.written {r : UpdateCode × Updater σ} (h : Checked pf u p r)
    (hin : InOtherSection pf p.blockBase p.bodySize) :
    BlockHandled pf dr u p (writeBlock dr p.blockBase p.data r.2) := by
  obtain ⟨new, hnew, hquiet⟩ := h.ops
  -- the write is made in all three results, only the read back tells them apart
  have hwrite (c : UpdateCode) (hc : c = .success → readsBack dr p.blockBase p.data
      (physicalWrite dr p.blockBase p.data r.2).2 = true) :
      BlockHandled pf dr u p (c, (physicalWrite dr p.blockBase p.data r.2).2) := by
    refine ⟨h.base, h.top, .write p.blockBase p.data :: new, ?_, ?_, ?_, ?_⟩
    · simp [physicalWrite, hnew]
    · intro op hop
      rcases List.mem_cons.mp hop with rfl | hop
      · rw [FlashOp.Within, p.length_data]
        exact hin
      · exact (hquiet op hop).1
    · intro off data hop
      rcases List.mem_cons.mp hop with heq | hop
      · simpa using heq
      · exact absurd rfl ((hquiet _ hop).2 off data)
    · intro hs _
      exact ⟨List.mem_cons_self, hc hs⟩
  unfold writeBlock
  simp only
  split_ifs with _ hread
  · exact hwrite _ (by simp)
  · exact hwrite _ (by simp)
  · exact hwrite _ fun _ => by simpa using hread

theorem blockHandled_handleBlock (dr : Drivers σ) (hk : SectionKnown pf u) (hfits : FitsU32 u p) :
    BlockHandled pf dr u p (handleBlock pf dr p u) := by
  have hcheck := checked_checkUpdateChunk dr (p := p) hk
  have hstay : Checked pf u p (.rollbackError, u) :=
    ⟨rfl, rfl, ⟨[], rfl, by simp⟩, by simp⟩
  have hflash (hno : isTouchpadBlock pf p.blockBase p.bodySize = false)
      (hs : (checkUpdateChunk pf dr p.blockBase p.bodySize u).1 = .success) :
      BlockHandled pf dr u p (writeBlock dr p.blockBase p.data
        (checkUpdateChunk pf dr p.blockBase p.bodySize u).2) :=
    hcheck.written (inOtherSection_of_fits hk hfits (hcheck.success hs hno))
  unfold handleBlock
  by_cases hdeny : (!contentsAllowed pf p.blockBase p.bodySize p.data) = true
  · rw [if_pos hdeny]
    exact hstay.handled [] rfl rfl rfl (by simp) (by simp)
  rw [if_neg hdeny]
  -- from here on only `Checked` is known of the range check and the erase
  generalize checkUpdateChunk pf dr p.blockBase p.bodySize u = r at hcheck hflash
  by_cases hs : r.1 = .success
  · simp only [hs, ne_eq, not_true_eq_false, if_false]
    cases htp : pf.touchpad with
    | none => exact hflash (by simp [isTouchpadBlock, htp]) hs
    | some tp =>
      by_cases hblock : isTouchpadBlock pf p.blockBase p.bodySize = true
      · simp only [hblock, if_true, writeTouchpadBlock]
        split_ifs
        · exact hcheck.handled [.touchpadWrite (p.blockBase - tp.virtualOff) p.data]
            rfl rfl rfl (by simp) (by simp)
        · exact hcheck.handled [.touchpadWrite (p.blockBase - tp.virtualOff) p.data]
            rfl rfl rfl (by simp) fun _ => hblock
      · simp only [hblock]
        exact hflash (by simpa using hblock) hs
  · simp only [ne_eq, hs, not_false_eq_true, if_true]
    exact hcheck.handled [] rfl rfl rfl (by simp) fun h => absurd h hs

theorem fwUpdateStart_section (hk : SectionKnown pf u) (rpdu : FirstResponsePdu) :
    SectionKnown pf (fwUpdateStart pf rpdu u).2 ∧ (fwUpdateStart pf rpdu u).2.ops = u.ops := by
  unfold fwUpdateStart
  cases himg : pf.image with
  | ro => exact ⟨.inr ⟨pf.rw, by simp [otherSection, himg], rfl, rfl⟩, rfl⟩
  | rw => exact ⟨.inr ⟨pf.ro, by simp [otherSection, himg], rfl, rfl⟩, rfl⟩
  | _ => exact ⟨hk, rfl⟩

/-! ## Every sequence of PDUs -/

theorem handles_of_known (hk : SectionKnown pf u) (hfits : FitsU32 u p) :
    Handles pf dr u p ∧ SectionKnown pf (step pf dr u p) := by
  -- too short, the start of a connection, or a block
  by_cases hshort : p.val.length < updateCommandSize
  · have hrun : fwUpdateCommandHandler pf dr p u = (.code .genError, u) := if_pos hshort
    have hstep : step pf dr u p = u := congrArg Prod.snd hrun
    refine ⟨⟨⟨[], by simp [hstep], by simp, by simp, by simp [hrun]⟩, fun _ => by simp [hstep]⟩, ?_⟩
    rw [hstep]
    exact hk
  by_cases hstart : p.blockBase = 0 ∧ p.bodySize = 0
  · have hrun : fwUpdateCommandHandler pf dr p u =
        (.first (fwUpdateStart pf blankResponse u).1, (fwUpdateStart pf blankResponse u).2) :=
      (if_neg hshort).trans (if_pos hstart)
    have hstep : step pf dr u p = (fwUpdateStart pf blankResponse u).2 := congrArg Prod.snd hrun
    obtain ⟨hknown, hops⟩ := fwUpdateStart_section hk blankResponse
    refine ⟨⟨⟨[], by simp [hstep, hops], by simp, by simp, by simp [hrun]⟩, fun hno => ?_⟩, ?_⟩
    · exact absurd ⟨Nat.le_of_not_lt hshort, hstart⟩ hno
    · rw [hstep]
      exact hknown
  · have hrun : fwUpdateCommandHandler pf dr p u =
        (.code (handleBlock pf dr p u).1, (handleBlock pf dr p u).2) :=
      (if_neg hshort).trans (if_neg hstart)
    have hstep : step pf dr u p = (handleBlock pf dr p u).2 := congrArg Prod.snd hrun
    have h := blockHandled_handleBlock dr hk hfits
    refine ⟨⟨?_, fun _ => ?_⟩, ?_⟩
    · rw [hrun, hstep]
      obtain ⟨new, hnew, hwithin, hpayload, hsuccess⟩ := h.ops
      exact ⟨new, hnew, hwithin, hpayload, fun hcode => hsuccess (Response.code.inj hcode)⟩
    · rw [hstep]
      exact ⟨h.base, h.top⟩
    · rw [hstep, SectionKnown, h.base, h.top]
      exact hk

/-- In every run of PDUs whose range check does not wrap around, each of them is handled as an
update of the image that is not running. -/
theorem update_touchesOtherImage {s₀ : σ} {p : Pdu}
    (h : Lib.Reach (step pf dr) FitsU32 (Updater.boot s₀) u) (hfits : FitsU32 u p) :
    Handles pf dr u p := by
  have hknown : SectionKnown pf u :=
    h.invariant (.inl rfl) fun u p hk hfits => (handles_of_known hk hfits).2
  exact (handles_of_known hknown hfits).1

end Update

/-! ## A board with 4 KiB of flash -/

def smallBoard : Platform where
  image := .ro
  ro := ⟨0, 2048, by decide, by decide⟩
  rw := ⟨2048, 4096, by decide, by decide⟩
  updatePduSize := 1024
  touchpad := none
  flashProtect := 0
  version := fun _ => none
  minRollback := none
  keyVersion := none
  rwsigInProgress := false

/-- A flash that holds the last block written to it. -/
def lastBlockFlash : Drivers (Nat × List UInt8) where
  flashPhysicalErase := fun _ _ _ => (true, (0, []))
  flashPhysicalWrite := fun off data _ => (true, (off, data))
  touchpadUpdateWrite := fun _ _ s => (false, s)
  mapped := fun s i => s.2.getD (i - s.1) 0xFF

def startPdu : Pdu :=
  ⟨List.replicate 8 0, by decide⟩

def firstBlock : Pdu :=
  ⟨[0, 0, 0, 0, 0, 0, 8, 0, 0x12, 0x34], by decide⟩

/-- Four bytes for the last byte of the address space and the three after it. -/
def wrappingBlock : Pdu :=
  ⟨[0, 0, 0, 0, 0xFF, 0xFF, 0xFF, 0xFF, 1, 2, 3, 4], by decide⟩

theorem update_touchesOtherImage_firstBlock :
    Handles smallBoard lastBlockFlash
      ([startPdu].foldl (step smallBoard lastBlockFlash) (.boot (0, []))) firstBlock :=
  update_touchesOtherImage (.allowed (by decide) .start) (by decide)

/-- The sum wraps around, the range check passes, and the block is written outside of the RW
section. -/
theorem update_wrapsAround :
    ∃ u, Lib.Reach (step smallBoard lastBlockFlash) (fun _ _ => True) (.boot (0, [])) u ∧
      ¬ Handles smallBoard lastBlockFlash u wrappingBlock := by
  refine ⟨[startPdu].foldl (step smallBoard lastBlockFlash) (.boot (0, [])),
    .allowed (Lib.allowed_of_forall (fun _ _ => trivial) _ _) .start, fun h => ?_⟩
  obtain ⟨new, hnew, hwithin, -⟩ := h.ops
  have hops : (step smallBoard lastBlockFlash
      ([startPdu].foldl (step smallBoard lastBlockFlash) (.boot (0, []))) wrappingBlock).ops =
      [.write (2 ^ 32 - 1) [1, 2, 3, 4]] := by decide
  have hprev : ([startPdu].foldl (step smallBoard lastBlockFlash) (.boot (0, []))).ops = [] := by
    decide
  rw [hops, hprev, List.append_nil] at hnew
  obtain ⟨sect, -, -, htop⟩ := hwithin (.write (2 ^ 32 - 1) [1, 2, 3, 4]) (by simp [← hnew])
  have hlt := sect.top_lt
  simp at htop
  omega

end ChromiumEc.Update
