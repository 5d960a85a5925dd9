import ChromiumEc.Lib.Snapshot
import ChromiumEc.Usbc.Discovery.Record

/-!
# Snapshot — the discovery record between the PD task and the AP

`hc_typec_discovery` copies the record of a port partner or a cable plug, field by field, while the
PD task may update it.  The access mask tells the two apart: each update leaves the mark of the PD
task before it writes, and the command clears the mask first and looks at it last.  An update that
has left its mark before the mask is cleared goes unnoticed.
-/

namespace ChromiumEc.Usbc.Snapshot

open Lib.Snapshot
open Discovery (DiscState SvdmVer vdoMaxObjects svidDiscoveryMax)

/-! ## The record, field by field -/

/-- The types of which `task_access` and the records are kept -/
inductive DiscoveryType
  | sop
  | sopPrime
  deriving DecidableEq, Repr

/-- The fields of `struct pd_discovery`, those of `svids` with the index of the entry -/
inductive Field
  | identity (i : Nat)
  | identityCnt
  | svdmVers
  | svid (i : Nat)
  | modeCnt (i : Nat)
  | modeVdo (i j : Nat)
  | modesDiscovery (i : Nat)
  | svidIdx
  | svidCnt
  | identityDiscovery
  | svidsDiscovery
  deriving DecidableEq, Repr

abbrev Field.Val : Field → Type
  | identity _ => UInt32
  | identityCnt => Nat
  | svdmVers => SvdmVer
  | svid _ => UInt16
  | modeCnt _ => Nat
  | modeVdo _ _ => UInt32
  | modesDiscovery _ => DiscState
  | svidIdx => Nat
  | svidCnt => Nat
  | identityDiscovery => DiscState
  | svidsDiscovery => DiscState

abbrev Reading (A : Type) := Read Field.Val A

abbrev Updating (A : Type) := Update DiscoveryType Field.Val A

def readField (f : Field) : Reading f.Val :=
  Read.get f

def getField (type : DiscoveryType) (f : Field) : Updating f.Val :=
  Update.get type f

def setField (type : DiscoveryType) (f : Field) (v : f.Val) : Updating Unit :=
  Update.set type f v

/-- `pd_get_am_discovery_and_notify_access`, in the PD task -/
def notifyAccess (type : DiscoveryType) : Updating Unit :=
  Update.notify type

/-! ## What both tasks read -/

/-- The first entry of the SVID.  The array has no entries after `SVID_DISCOVERY_MAX`. -/
def findSvid (svid : UInt16) : Reading (Option Nat) :=
  go svidDiscoveryMax 0
where
  go : Nat → Nat → Reading (Option Nat)
    | 0, _ => pure none
    | n + 1, i => do
      let cnt : Nat ← readField .svidCnt
      if i < cnt then
        let x : UInt16 ← readField (.svid i)
        if x = svid then pure (some i) else go n (i + 1)
      else pure none

/-- `pd_get_next_mode`: the index of the entry, if there is one -/
def pdGetNextMode : Reading (Option Nat) :=
  go svidDiscoveryMax 0 false none
where
  go : Nat → Nat → Bool → Option Nat → Reading (Option Nat)
    | 0, _, good, failed => pure (if good then none else failed)
    | n + 1, i, good, failed => do
      let cnt : Nat ← readField .svidCnt
      if i < cnt then
        let st : DiscState ← readField (.modesDiscovery i)
        if st = .needed then pure (some i)
        else
          let st : DiscState ← readField (.modesDiscovery i)
          if st = .complete then go n (i + 1) true failed
          else go n (i + 1) good (failed.or (some i))
      else pure (if good then none else failed)

def pdGetModesDiscovery : Reading DiscState := do
  match ← pdGetNextMode with
  | none => pure .complete
  | some i => readField (.modesDiscovery i)

/-! ## The command -/

/-- `struct svid_mode_info` -/
structure SvidModeInfo where
  svid : UInt16
  modeCount : UInt16
  modeVdo : List UInt32
  deriving DecidableEq, Repr

/-- `struct ec_response_typec_discovery` -/
structure TypecDiscovery where
  identityCount : UInt8
  discoveryVdo : List UInt32
  svidCount : UInt8
  svids : List SvidModeInfo
  deriving DecidableEq, Repr

/-- The response as it is when the handler is called: the buffer is cleared before. -/
def TypecDiscovery.cleared : TypecDiscovery :=
  ⟨0, List.replicate vdoMaxObjects 0, 0, []⟩

def readSvidModeInfo (i : Nat) : Reading SvidModeInfo := do
  let svid : UInt16 ← readField (.svid i)
  let modeCnt : Nat ← readField (.modeCnt i)
  let modeVdo ← (List.range vdoMaxObjects).mapM fun j => (readField (.modeVdo i j) : Reading UInt32)
  pure ⟨svid, modeCnt.toUInt16, modeVdo⟩

/-- `hc_typec_discovery`, for a valid port and partner, after the mask is cleared and its own mark
left.  `maxRespSvids` entries fit the response. -/
def hcTypecDiscovery (maxRespSvids : Nat) : Reading (Outcome TypecDiscovery) := do
  let identity : DiscState ← readField .identityDiscovery
  if identity ≠ .complete then
    pure (.early .cleared)
  else
    let identityCnt : Nat ← readField .identityCnt
    let vdos ← (List.range vdoMaxObjects).mapM fun i => (readField (.identity i) : Reading UInt32)
    if (← pdGetModesDiscovery) = .complete then
      let svidCnt : Nat ← readField .svidCnt
      let svidCount : UInt8 ←
        if maxRespSvids < svidCnt then pure maxRespSvids.toUInt8
        else do
          let svidCnt : Nat ← readField .svidCnt
          pure svidCnt.toUInt8
      let svids ← (List.range svidCount.toNat).mapM readSvidModeInfo
      pure (.checked ⟨identityCnt.toUInt8, vdos, svidCount, svids⟩)
    else
      pure (.checked ⟨identityCnt.toUInt8, vdos, 0, []⟩)

/-! ## The updates of the PD task -/

/-- Fields of a record are written to one after the other. -/
def setAll (type : DiscoveryType) : List ((f : Field) × f.Val) → Updating Unit
  | [] => pure ()
  | ⟨f, v⟩ :: rest => do
    setField type f v
    setAll type rest

def pdSetIdentityDiscovery (type : DiscoveryType) (disc : DiscState) : Updating Unit := do
  notifyAccess type
  setField type .identityDiscovery disc

def pdSetSvidsDiscovery (type : DiscoveryType) (disc : DiscState) : Updating Unit := do
  notifyAccess type
  setField type .svidsDiscovery disc

def pdSetModesDiscovery (type : DiscoveryType) (svid : UInt16) (disc : DiscState) :
    Updating Unit := do
  notifyAccess type
  match ← Update.ofRead type (findSvid svid) with
  | none => pure ()
  | some i => setField type (.modesDiscovery i) disc

/-- `dfp_consume_identity` of a partner, and of a cable plug where SOP' is decoded -/
def dfpConsumeIdentity (type : DiscoveryType) (cnt : Nat) (payload : List UInt32) :
    Updating Unit := do
  notifyAccess type
  let size := min vdoMaxObjects (cnt - 1)
  setAll type (((payload.drop 1).take size).zipIdx.map fun (vdo, i) => ⟨.identity i, vdo⟩)
  setField type .identityCnt size
  let header := payload.getD 0 0
  setField type .svdmVers
    (if (header >>> 13) &&& 3 != 0 then
      if (header >>> 11) &&& 3 != 0 then .v21 else .v20
    else .v10)
  pdSetIdentityDiscovery type .complete

/-- An SVID is recorded, unless `is_svid_duplicated`. -/
def addSvid (type : DiscoveryType) (svid : UInt16) : Updating Unit := do
  match ← Update.ofRead type (findSvid svid) with
  | some _ => pure ()
  | none =>
    let cnt : Nat ← getField type .svidCnt
    setField type .svidCnt (cnt + 1)
    setField type (.svid cnt) svid

/-- The loop of `dfp_consume_svids` -/
def consumeSvidVdos (type : DiscoveryType) : Nat → List UInt32 → Updating Unit
  | _, [] => pure ()
  | i, vdo :: vdos => do
    let cnt : Nat ← getField type .svidCnt
    if cnt + 12 ≤ i ∨ svidDiscoveryMax ≤ i then pure ()
    else if vdo >>> 16 = 0 then pure ()
    else
      addSvid type (vdo >>> 16).toUInt16
      if vdo &&& 0xffff = 0 then pure ()
      else
        addSvid type vdo.toUInt16
        consumeSvidVdos type (i + 2) vdos

def dfpConsumeSvids (type : DiscoveryType) (cnt : Nat) (payload : List UInt32) :
    Updating Unit := do
  notifyAccess type
  let svidCnt : Nat ← getField type .svidCnt
  consumeSvidVdos type svidCnt ((payload.drop 1).take (cnt - 1))
  pdSetSvidsDiscovery type .complete

/-- The SVID of what `pd_get_next_mode` has returned.  `atNull` is what is read through `NULL`. -/
def modeSvid (atNull : UInt16) (type : DiscoveryType) : Option Nat → Updating UInt16
  | none => pure atNull
  | some i => getField type (.svid i)

def dfpConsumeModes (atNull : UInt16) (type : DiscoveryType) (cnt : Nat) (payload : List UInt32) :
    Updating Unit := do
  notifyAccess type
  let responseSvid := (pdVdoVid (payload.getD 0 0)).toUInt16
  let next ← Update.ofRead type pdGetNextMode
  let mode ← Update.ofRead type (findSvid responseSvid)
  let requestedSvid ← modeSvid atNull type next
  match mode with
  | none => pdSetModesDiscovery type requestedSvid .fail
  | some i =>
    if requestedSvid ≠ responseSvid then
      pdSetModesDiscovery type requestedSvid .fail
    else
      setField type (.modeCnt i) (cnt - 1)
      if cnt - 1 < 1 then
        pdSetModesDiscovery type responseSvid .fail
      else
        setAll type
          (((payload.drop 1).take (cnt - 1)).zipIdx.map fun (vdo, j) => ⟨.modeVdo i j, vdo⟩)
        let svidIdx : Nat ← getField type .svidIdx
        setField type .svidIdx (svidIdx + 1)
        pdSetModesDiscovery type responseSvid .complete

/-- The fields of a record that is cleared, in the order of the structure -/
def zeroed : List ((f : Field) × f.Val) :=
  ((List.range vdoMaxObjects).map (fun i => ⟨.identity i, (0 : UInt32)⟩) ++
    [⟨.identityCnt, (0 : Nat)⟩, ⟨.svdmVers, SvdmVer.v10⟩] ++
    (List.range svidDiscoveryMax).flatMap (fun i =>
      [⟨.svid i, (0 : UInt16)⟩, ⟨.modeCnt i, (0 : Nat)⟩] ++
        (List.range vdoMaxObjects).map (fun j => ⟨.modeVdo i j, (0 : UInt32)⟩) ++
        [⟨.modesDiscovery i, DiscState.needed⟩]) ++
    [⟨.svidIdx, (0 : Nat)⟩, ⟨.svidCnt, (0 : Nat)⟩]) ++
  [⟨.identityDiscovery, DiscState.needed⟩, ⟨.svidsDiscovery, DiscState.needed⟩]

def pdDfpDiscoveryInit : Updating Unit := do
  notifyAccess .sop
  notifyAccess .sopPrime
  setAll .sop zeroed
  setAll .sopPrime zeroed

inductive PdUpdate
  | consumeIdentity (type : DiscoveryType) (cnt : Nat) (payload : List UInt32)
  | consumeSvids (type : DiscoveryType) (cnt : Nat) (payload : List UInt32)
  | consumeModes (atNull : UInt16) (type : DiscoveryType) (cnt : Nat) (payload : List UInt32)
  | setIdentityDiscovery (type : DiscoveryType) (disc : DiscState)
  | setSvidsDiscovery (type : DiscoveryType) (disc : DiscState)
  | setModesDiscovery (type : DiscoveryType) (svid : UInt16) (disc : DiscState)
  | discoveryInit

def PdUpdate.steps : PdUpdate → Updating Unit
  | consumeIdentity type cnt payload => dfpConsumeIdentity type cnt payload
  | consumeSvids type cnt payload => dfpConsumeSvids type cnt payload
  | consumeModes atNull type cnt payload => dfpConsumeModes atNull type cnt payload
  | setIdentityDiscovery type disc => pdSetIdentityDiscovery type disc
  | setSvidsDiscovery type disc => pdSetSvidsDiscovery type disc
  | setModesDiscovery type svid disc => pdSetModesDiscovery type svid disc
  | discoveryInit => pdDfpDiscoveryInit

def IsPdUpdate (p : Updating Unit) : Prop :=
  ∃ update : PdUpdate, update.steps = p

/-! ## The updates leave their mark first -/

section Updates

variable {S : DiscoveryType → Field → Prop} {type m : DiscoveryType} {svid : UInt16}
  {disc : DiscState}

theorem writesOnly_setAll {fs : List ((f : Field) × f.Val)} (h : ∀ x ∈ fs, S type x.1) :
    (setAll type fs).WritesOnly S := by
  induction fs with
  | nil => trivial
  | cons x fs ih => exact ⟨h x List.mem_cons_self, ih fun y hy => h y (List.mem_cons_of_mem _ hy)⟩

theorem writesOnly_pdSetModesDiscovery (h : ∀ i, S type (.modesDiscovery i)) :
    (pdSetModesDiscovery type svid disc).WritesOnly S := by
  refine Update.WritesOnly.bind (p := notifyAccess type) trivial fun _ => ?_
  refine Update.WritesOnly.bind (Update.writesOnly_ofRead _) fun found => ?_
  cases found with
  | none => trivial
  | some i => exact ⟨h i, trivial⟩

theorem writesOnly_addSvid (hcnt : S type .svidCnt) (hsvid : ∀ i, S type (.svid i)) :
    (addSvid type svid).WritesOnly S := by
  refine Update.WritesOnly.bind (Update.writesOnly_ofRead _) fun found => ?_
  cases found with
  | none => exact fun cnt => ⟨hcnt, hsvid cnt, trivial⟩
  | some i => trivial

theorem writesOnly_consumeSvidVdos (hcnt : S type .svidCnt) (hsvid : ∀ i, S type (.svid i))
    (vdos : List UInt32) (i : Nat) : (consumeSvidVdos type i vdos).WritesOnly S := by
  induction vdos generalizing i with
  | nil => trivial
  | cons vdo vdos ih =>
    have hadd : ∀ x, (addSvid type x).WritesOnly S := fun x => writesOnly_addSvid hcnt hsvid
    refine Update.WritesOnly.bind (p := getField type .svidCnt) (fun _ => trivial) fun cnt => ?_
    split
    · trivial
    split
    · trivial
    refine Update.WritesOnly.bind (hadd _) fun _ => ?_
    split
    · trivial
    exact Update.WritesOnly.bind (hadd _) fun _ => ih (i + 2)

/-- The fields that an update of one record writes to, the state of the identity apart -/
def Others (type : DiscoveryType) (m : DiscoveryType) (f : Field) : Prop :=
  m = type ∧ f ≠ .identityDiscovery

theorem others_pdSetModesDiscovery :
    (pdSetModesDiscovery type svid disc).WritesOnly (Others type) :=
  writesOnly_pdSetModesDiscovery fun _ => ⟨rfl, by simp⟩

theorem others_dfpConsumeSvids (cnt : Nat) (payload : List UInt32) :
    (dfpConsumeSvids type cnt payload).WritesOnly (Others type) := by
  refine Update.WritesOnly.bind (p := notifyAccess type) trivial fun _ => ?_
  refine Update.WritesOnly.bind (p := getField type .svidCnt) (fun _ => trivial) fun svidCnt => ?_
  refine Update.WritesOnly.bind
    (writesOnly_consumeSvidVdos ⟨rfl, by simp⟩ (fun i => ⟨rfl, by simp⟩) _ _) fun _ => ?_
  exact ⟨⟨rfl, by simp⟩, trivial⟩

theorem others_dfpConsumeModes (atNull : UInt16) (cnt : Nat) (payload : List UInt32) :
    (dfpConsumeModes atNull type cnt payload).WritesOnly (Others type) := by
  refine Update.WritesOnly.bind (p := notifyAccess type) trivial fun _ => ?_
  refine Update.WritesOnly.bind (Update.writesOnly_ofRead _) fun next => ?_
  refine Update.WritesOnly.bind (Update.writesOnly_ofRead _) fun mode => ?_
  have hsvid : (modeSvid atNull type next).WritesOnly (Others type) := by
    cases next with
    | none => trivial
    | some i => exact fun _ => trivial
  refine Update.WritesOnly.bind hsvid fun requestedSvid => ?_
  cases mode with
  | none => exact others_pdSetModesDiscovery
  | some i =>
    dsimp only
    split
    · exact others_pdSetModesDiscovery
    refine Update.WritesOnly.bind (p := setField type (.modeCnt i) _) ⟨⟨rfl, by simp⟩, trivial⟩
      fun _ => ?_
    split
    · exact others_pdSetModesDiscovery
    refine Update.WritesOnly.bind (writesOnly_setAll ?_) fun _ => ?_
    · intro x hx
      obtain ⟨⟨vdo, j⟩, -, rfl⟩ := List.mem_map.mp hx
      exact ⟨rfl, by simp⟩
    · exact fun svidIdx => ⟨⟨rfl, by simp⟩, others_pdSetModesDiscovery⟩

theorem once_pdSetIdentityDiscovery :
    (pdSetIdentityDiscovery type disc).Once m .identityDiscovery :=
  ⟨fun _ => trivial, trivial⟩

theorem once_dfpConsumeIdentity (cnt : Nat) (payload : List UInt32) :
    (dfpConsumeIdentity type cnt payload).Once m .identityDiscovery := by
  refine Update.Once.bind_left (p := notifyAccess type) trivial fun _ => ?_
  refine Update.Once.bind_left (writesOnly_setAll fun x hx => ?_) fun _ => ?_
  · obtain ⟨⟨vdo, i⟩, -, rfl⟩ := List.mem_map.mp hx
    simp
  · refine Update.Once.bind_left (p := setField type .identityCnt _) ⟨by simp, trivial⟩ fun _ => ?_
    refine Update.Once.bind_left (p := setField type .svdmVers _) ⟨by simp, trivial⟩ fun _ => ?_
    exact once_pdSetIdentityDiscovery

theorem once_setAll_append {f : Field} {front back : List ((f : Field) × f.Val)}
    (hfront : ∀ x ∈ front, x.1 ≠ f) (hback : (setAll type back).Once m f) :
    (setAll type (front ++ back)).Once m f := by
  induction front with
  | nil => exact hback
  | cons x front ih =>
    have hx : ¬(type = m ∧ x.1 = f) := fun h => hfront x List.mem_cons_self h.2
    exact ⟨fun h => absurd h hx, ih fun y hy => hfront y (List.mem_cons_of_mem _ hy)⟩

theorem once_setAll_zeroed : (setAll type zeroed).Once m .identityDiscovery := by
  refine once_setAll_append ?_ ⟨fun _ => ⟨by simp, trivial⟩, by simp, trivial⟩
  intro x hx
  simp only [List.mem_append, List.mem_map, List.mem_flatMap, List.mem_cons, List.not_mem_nil,
    or_false] at hx
  obtain ((⟨i, -, rfl⟩ | rfl | rfl) | ⟨i, -, ((rfl | rfl) | ⟨j, -, rfl⟩) | rfl⟩) | rfl | rfl := hx
    <;> simp

theorem once_pdDfpDiscoveryInit : pdDfpDiscoveryInit.Once m .identityDiscovery := by
  refine Update.Once.bind_left (p := notifyAccess .sop) trivial fun _ => ?_
  refine Update.Once.bind_left (p := notifyAccess .sopPrime) trivial fun _ => ?_
  cases m with
  | sop =>
    exact Update.Once.bind_right once_setAll_zeroed fun _ =>
      writesOnly_setAll fun x _ => by simp
  | sopPrime =>
    exact Update.Once.bind_left (writesOnly_setAll fun x _ => by simp) fun _ =>
      once_setAll_zeroed

theorem quiet_of_mark {p k : Updating Unit} (hp : p = .mark type k)
    (h : p.WritesOnly fun m _ => m = type) : p.Quiet m := by
  by_cases hm : type = m
  · rw [hp]
    exact .inl hm
  · exact h.quiet fun _ heq => hm heq.symm

theorem quiet_once_of_others {p k : Updating Unit} (hp : p = .mark type k)
    (h : p.WritesOnly (Others type)) : p.Quiet m ∧ p.Once m .identityDiscovery :=
  ⟨quiet_of_mark hp (h.mono fun _ _ hS => hS.1),
    Update.NoWrite.once (h.mono fun _ _ hS heq => hS.2 heq.2)⟩

theorem writesOnly_dfpConsumeIdentity (cnt : Nat) (payload : List UInt32) :
    (dfpConsumeIdentity type cnt payload).WritesOnly fun m _ => m = type := by
  refine Update.WritesOnly.bind (p := notifyAccess type) trivial fun _ => ?_
  refine Update.WritesOnly.bind (writesOnly_setAll fun _ _ => rfl) fun _ => ?_
  exact ⟨rfl, rfl, rfl, trivial⟩

/-- Each update leaves the mark of the PD task before it writes, and changes the state of the
identity at most once. -/
theorem IsPdUpdate.quiet_once {p : Updating Unit} (h : IsPdUpdate p) (m : DiscoveryType) :
    p.Quiet m ∧ p.Once m .identityDiscovery := by
  obtain ⟨update, rfl⟩ := h
  cases update with
  | consumeIdentity type cnt payload =>
    exact ⟨quiet_of_mark rfl (writesOnly_dfpConsumeIdentity cnt payload),
      once_dfpConsumeIdentity cnt payload⟩
  | consumeSvids type cnt payload =>
    exact quiet_once_of_others rfl (others_dfpConsumeSvids cnt payload)
  | consumeModes atNull type cnt payload =>
    exact quiet_once_of_others rfl (others_dfpConsumeModes atNull cnt payload)
  | setIdentityDiscovery type disc =>
    exact ⟨quiet_of_mark rfl ⟨rfl, trivial⟩, once_pdSetIdentityDiscovery⟩
  | setSvidsDiscovery type disc => exact quiet_once_of_others rfl ⟨⟨rfl, by simp⟩, trivial⟩
  | setModesDiscovery type svid disc => exact quiet_once_of_others rfl others_pdSetModesDiscovery
  | discoveryInit =>
    refine ⟨?_, once_pdDfpDiscoveryInit⟩
    cases m with
    | sop => exact .inl rfl
    | sopPrime => exact .inr (.inl rfl)

end Updates

/-! ## What the AP is told -/

abbrev DiscoveryState := State DiscoveryType Field.Val TypecDiscovery

/-- One step of the PD task or of the command, or an update that begins -/
abbrev discoveryStep (type : DiscoveryType) (maxRespSvids : Nat) :
    DiscoveryState → Event DiscoveryType Field.Val → DiscoveryState :=
  State.step type (hcTypecDiscovery maxRespSvids)

theorem hcTypecDiscovery_eq (maxRespSvids : Nat) :
    ∃ k : DiscState → Reading (Outcome TypecDiscovery),
      hcTypecDiscovery maxRespSvids = .field .identityDiscovery k ∧
        ∀ st, (∃ a, k st = .ret (.early a)) ∨ (k st).Leaves Outcome.IsChecked := by
  refine ⟨_, rfl, fun st => ?_⟩
  dsimp only [Read.bind]
  split
  · exact .inl ⟨_, rfl⟩
  · refine .inr ?_
    refine Read.Leaves.bind (q := readField .identityCnt) fun identityCnt => ?_
    refine Read.Leaves.bind fun vdos => ?_
    refine Read.Leaves.bind fun modes => ?_
    have hlast : ∀ svidCount : UInt8,
        ((List.range svidCount.toNat).mapM readSvidModeInfo >>= fun svids =>
          pure (Outcome.checked (TypecDiscovery.mk identityCnt.toUInt8 vdos svidCount svids))
          : Reading (Outcome TypecDiscovery)).Leaves Outcome.IsChecked :=
      fun svidCount => Read.Leaves.bind fun svids => trivial
    split
    · refine Read.Leaves.bind (q := readField .svidCnt) fun svidCnt => ?_
      split
      · exact hlast _
      · exact Read.Leaves.bind (q := readField .svidCnt) fun svidCnt => hlast _
    · trivial

/-- For every interleaving of the command with the updates of the PD task, from any records and any
access mask, on which the mask is not cleared while an update of the record is under way: the answer
is `EC_RES_BUSY`, or what the command would have returned from a record between two updates. -/
theorem hcTypecDiscovery_snapshot {type : DiscoveryType} {maxRespSvids : Nat}
    {records : DiscoveryType → (f : Field) → f.Val} {taskAccess : DiscoveryType → Marks}
    {s : DiscoveryState} {answer : Option TypecDiscovery}
    (h : Lib.Reach (discoveryStep type maxRespSvids) (State.Timely IsPdUpdate type)
      (State.init records taskAccess) s)
    (hanswer : s.reader = .answered answer) :
    answer = none ∨
      ∃ record ∈ s.history,
        answer = some (State.alone type (hcTypecDiscovery maxRespSvids) record) := by
  obtain ⟨k, hbody, hk⟩ := hcTypecDiscovery_eq maxRespSvids
  exact State.answered_of_reach (fun p hp => hp.quiet_once type) hbody hk h hanswer

/-- The record of a partner that has answered Discover Identity and has no SVIDs -/
def identityRecord : (f : Field) → f.Val
  | .identity _ => (0xff000000 : UInt32)
  | .identityCnt => (1 : Nat)
  | .svdmVers => SvdmVer.v20
  | .svid _ => (0 : UInt16)
  | .modeCnt _ => (0 : Nat)
  | .modeVdo _ _ => (0 : UInt32)
  | .modesDiscovery _ => DiscState.needed
  | .svidIdx => (0 : Nat)
  | .svidCnt => (0 : Nat)
  | .identityDiscovery => DiscState.complete
  | .svidsDiscovery => DiscState.complete

/-- No task has touched the record, and the command is about to run. -/
def identityKnown : DiscoveryState :=
  State.init (fun _ => identityRecord) fun _ => ⟨false, false⟩

/-- The record is being cleared, and after `n` steps the command runs. -/
def duringInit (n : Nat) : List (Event DiscoveryType Field.Val) :=
  .begin pdDfpDiscoveryInit :: (List.replicate n .writer ++ List.replicate 14 .reader)

def copied (vdo : UInt32) : TypecDiscovery :=
  ⟨1, vdo :: List.replicate 5 0xff000000, 0, []⟩

theorem hcTypecDiscovery_snapshot_identity :
    let s := (duringInit 0).foldl (discoveryStep .sop 16) identityKnown
    s.reader = .answered (some (copied 0xff000000)) ∧
      (some (copied 0xff000000) = none ∨ ∃ record ∈ s.history,
        some (copied 0xff000000) = some (State.alone .sop (hcTypecDiscovery 16) record)) := by
  have hreach : Lib.Reach (discoveryStep .sop 16) (State.Timely IsPdUpdate .sop) identityKnown
      ((duringInit 0).foldl (discoveryStep .sop 16) identityKnown) :=
    .allowed
      ⟨⟨.discoveryInit, rfl⟩, State.allowed_reader (fun h => Bool.false_ne_true h.1) 14⟩ .start
  exact ⟨rfl, hcTypecDiscovery_snapshot hreach rfl⟩

/-- The mask is cleared while the records are: the first identity VDO is zero already, and the
number of them is not. -/
theorem not_hcTypecDiscovery_snapshot :
    ¬∀ {type : DiscoveryType} {maxRespSvids : Nat} {records : DiscoveryType → (f : Field) → f.Val}
      {taskAccess : DiscoveryType → Marks} {s : DiscoveryState} {answer : Option TypecDiscovery},
      Lib.Reach (discoveryStep type maxRespSvids) (State.Made IsPdUpdate)
        (State.init records taskAccess) s → s.reader = .answered answer →
      answer = none ∨ ∃ record ∈ s.history,
        answer = some (State.alone type (hcTypecDiscovery maxRespSvids) record) := by
  intro h
  have hreach : Lib.Reach (discoveryStep .sop 16) (State.Made IsPdUpdate) identityKnown
      ((duringInit 3).foldl (discoveryStep .sop 16) identityKnown) := by
    refine .allowed ⟨⟨.discoveryInit, rfl⟩, ?_⟩ .start
    simp [Lib.Allowed, State.Made, List.replicate]
  have hanswer : ((duringInit 3).foldl (discoveryStep .sop 16) identityKnown).reader =
      .answered (some (copied 0)) := rfl
  obtain hnone | ⟨record, hrecord, heq⟩ := h hreach hanswer
  · cases hnone
  · have hhistory : ((duringInit 3).foldl (discoveryStep .sop 16) identityKnown).history =
        [pdDfpDiscoveryInit.final fun _ => identityRecord, fun _ => identityRecord] := rfl
    rw [hhistory, List.mem_cons, List.mem_singleton] at hrecord
    obtain rfl | rfl := hrecord
    · revert heq
      decide +kernel
    · revert heq
      decide +kernel

end ChromiumEc.Usbc.Snapshot
