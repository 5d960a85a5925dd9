import ChromiumEc.Cbi.Safe

/-!
# Set — the command that sets a tag

`common_cbi_set`.  The image is changed in memory before it is known whether the new value fits: with
`CBI_SET_INIT` it is cleared, and an entry of another size is removed.  A request that fails changes
nothing where neither was done.
-/

namespace ChromiumEc.Cbi

/-! ## The command -/

def cbiTagBoardVersion : Nat := 0
def cbiTagOemId : Nat := 1
def cbiVersionMinor : UInt8 := 0

structure Board extends Config where
  /-- `CONFIG_SYSTEM_UNLOCKED` -/
  systemUnlocked : Bool
  /-- `is_protected` of the driver -/
  isProtected : Bool
  /-- `store` of the driver succeeds. -/
  store : List UInt8 → Bool

/-- `struct ec_params_set_cbi`, with as many bytes of data as its size says -/
structure SetRequest where
  tag : Nat
  /-- `CBI_SET_NO_SYNC` -/
  noSync : Bool
  /-- `CBI_SET_INIT` -/
  init : Bool
  data : List UInt8

inductive Response
  | success
  | error
  | accessDenied
  | invalidParam
  deriving DecidableEq, Repr

namespace SetRequest

/-- The value that is set: `cbi_set_board_info` takes the size in a byte. -/
def value (req : SetRequest) : List UInt8 :=
  req.data.take (req.data.length % 256)

/-- The write protection, or a tag that is a part of the hardware -/
def denied (req : SetRequest) (b : Board) : Bool :=
  (b.isProtected && !req.noSync) ||
    (!b.systemUnlocked && (req.tag == cbiTagBoardVersion || req.tag == cbiTagOemId))

end SetRequest

/-- The block after `CBI_SET_INIT` -/
def initImage (image : List UInt8) : List UInt8 :=
  setTotalSize sizeofHeader (Lib.memcpy (Lib.memset image 0 0 image.length) 0 cbiMagic)

/-- The version and the checksum are those of this format. -/
def stampImage (image : List UInt8) : List UInt8 :=
  let image := (image.set 5 cbiVersionMajor).set 4 cbiVersionMinor
  image.set 3 (cbiCrc8 image)

def commonCbiSet (b : Board) (req : SetRequest) (s : State) : Option (Response × State) :=
  if req.denied b then some (.accessDenied, s)
  else
    let (status, s) :=
      if req.init then (.success, { s with image := initImage s.image }) else cbiRead b.toConfig s
    if status ≠ .success then some (.error, s)
    else do
      let (status, image, _) ← cbiSetBoardInfo req.tag req.value s.image
      -- the image that failed stays in the cache, which counts as in sync
      if status ≠ .success then some (.invalidParam, { s with image := image })
      else
        let s : State := ⟨stampImage image, .synced⟩
        if req.noSync then some (.success, s)
        -- `cbi_write`
        else if b.isProtected then some (.error, s)
        else some (if b.store s.image then .success else .error, s)

/-! ## Requests that fail -/

/-- An image that is accepted, with a correct checksum, and whose entries are inside it -/
structure Valid (image : List UInt8) : Prop where
  magic : image.take 3 = cbiMagic
  version : ¬cbiVersionMajor < byteAt image 5
  le_total : sizeofHeader ≤ totalSize image
  total_le : totalSize image ≤ image.length
  crc : cbiCrc8 image = byteAt image 3
  contained : Contained image

/-- The image is as before, and so is what can be read from it. -/
structure ChangesNothing (cfg : Config) (s s' : State) : Prop where
  image : s'.image = s.image
  total : totalSize s'.image = totalSize s.image
  crc : cbiCrc8 s'.image = byteAt s'.image 3
  values : ∀ tag buf,
    (cbiGetBoardInfo cfg tag buf s').map Prod.fst = (cbiGetBoardInfo cfg tag buf s).map Prod.fst

/-- A new entry fits behind entries up to `total`. -/
def Fits (req : SetRequest) (image : List UInt8) (total : Nat) : Prop :=
  total + sizeofData + req.value.length ≤ image.length

/-- Nothing was cleared or removed for a value that does not fit: the request is denied; or the value
fits a cleared image, with `CBI_SET_INIT`; or else the tag has no entry, or one of the same size, or
the value fits where the entry is removed. -/
def KeepsOnFailure (b : Board) (req : SetRequest) (image : List UInt8) : Prop :=
  req.denied b = true ∨
    if req.init then Fits req image sizeofHeader
    else ∀ d accesses, cbiFindTag image req.tag = some (some d, accesses) →
      dataSize image d = req.value.length ∨
        Fits req image (totalSize image - (sizeofData + dataSize image d))

variable {b : Board} {req : SetRequest} {s s' : State} {image value : List UInt8} {tag d : Nat}

theorem ChangesNothing.refl {cfg : Config} (h : Valid s.image) : ChangesNothing cfg s s :=
  ⟨rfl, rfl, h.crc, fun _ _ => rfl⟩

/-! ## The cleared image -/

/-- The header of a cleared image, with a checksum of zero -/
def initHeader : List UInt8 :=
  [0x43, 0x42, 0x49, 0, 0, 0, 8, 0]

theorem initImage_eq (h : sizeofHeader ≤ image.length) :
    initImage image = initHeader ++ List.replicate (image.length - sizeofHeader) 0 := by
  obtain ⟨k, hk⟩ := Nat.exists_eq_add_of_le h
  have hclear : Lib.memset image 0 0 image.length = List.replicate (8 + k) 0 := by
    rw [hk]
    simp [Lib.memset, Lib.memcpy, hk, sizeofHeader]
  rw [initImage, hclear, hk, Nat.add_sub_cancel_left, List.replicate_add]
  rfl

theorem totalSize_initImage (h : sizeofHeader ≤ image.length) :
    totalSize (initImage image) = sizeofHeader := by
  rw [initImage_eq h]
  rfl

theorem cbiCrc8_initImage_ne (h : sizeofHeader ≤ image.length) :
    cbiCrc8 (initImage image) ≠ byteAt (initImage image) 3 := by
  rw [cbiCrc8, totalSize_initImage h, initImage_eq h]
  show crosCrc8 [0, 0, 8, 0] ≠ 0
  decide +kernel

theorem cbiFindTag_initImage (h : sizeofHeader ≤ image.length) (tag : Nat) :
    ∃ accesses, cbiFindTag (initImage image) tag = some (none, accesses) := by
  have htotal := totalSize_initImage h
  obtain ⟨found, accesses, hfind, -, hfound⟩ := cbiFindTag_spec (Nat.le_of_eq htotal.symm) tag
  cases found with
  | none => exact ⟨accesses, hfind⟩
  | some d =>
    have hle := hfound.1.le
    have hlt := hfound.1.lt_totalSize
    omega

/-! ## The entry of the tag -/

theorem appendItem_of_not_fits (h : image.length < totalSize image + sizeofData + value.length) :
    appendItem tag value image = (.errorOverflow, image, []) :=
  if_pos h

theorem appendItem_of_fits (h : totalSize image + sizeofData + value.length ≤ image.length) :
    (appendItem tag value image).1 = .success := by
  rw [appendItem, if_neg (Nat.not_lt.mpr h)]

theorem commonCbiSet_of_set {t : State} {status : Status} {image' : List UInt8}
    {accesses : List Access} (hdenied : req.denied b = false)
    (hread : (if req.init then (Status.success, { s with image := initImage s.image })
      else cbiRead b.toConfig s) = (.success, t))
    (hset : cbiSetBoardInfo req.tag req.value t.image = some (status, image', accesses)) :
    (status ≠ .success → commonCbiSet b req s = some (.invalidParam, { t with image := image' })) ∧
      (status = .success → ∀ s', commonCbiSet b req s ≠ some (.invalidParam, s')) := by
  have hcommand : commonCbiSet b req s =
      if status ≠ .success then some (.invalidParam, { t with image := image' })
      else if req.noSync then some (.success, ⟨stampImage image', .synced⟩)
      else if b.isProtected then some (.error, ⟨stampImage image', .synced⟩)
      else some (if b.store (stampImage image') then .success else .error,
        ⟨stampImage image', .synced⟩) := by
    rw [commonCbiSet, hdenied, if_neg Bool.false_ne_true, hread]
    dsimp only
    rw [hset]
    rfl
  rw [hcommand]
  refine ⟨fun hfail => if_pos hfail, fun hok s' => ?_⟩
  rw [if_neg (not_not.mpr hok)]
  split
  · nofun
  · split
    · nofun
    · intro h
      have hresponse := congrArg Prod.fst (Option.some.inj h)
      dsimp only at hresponse
      split at hresponse
      · cases hresponse
      · cases hresponse

theorem Valid.removed (h : Valid image) {accesses : List Access}
    (hfind : cbiFindTag image tag = some (some d, accesses)) :
    (cbiRemoveTag d image).1.length = image.length ∧
      totalSize (cbiRemoveTag d image).1 + (sizeofData + dataSize image d) = totalSize image := by
  obtain ⟨found, accesses', hfind', -, hfound⟩ := cbiFindTag_spec h.le_total tag
  have heq : some d = found := by
    rw [hfind] at hfind'
    exact congrArg Prod.fst (Option.some.inj hfind')
  subst heq
  have hend := h.contained.found hfound
  exact ⟨length_cbiRemoveTag hend h.total_le, (cbiRemoveTag_spec hfound.1 hend h.total_le).2⟩

/-! ## The main result -/

theorem changesNothing_iff_of_init (h : Valid s.image) (hdenied : req.denied b = false)
    (hinit : req.init = true) :
    (∀ s', commonCbiSet b req s = some (.invalidParam, s') → ChangesNothing b.toConfig s s') ↔
      Fits req s.image sizeofHeader := by
  have hblock : sizeofHeader ≤ s.image.length := Nat.le_trans h.le_total h.total_le
  have hlength : (initImage s.image).length = s.image.length := by
    rw [initImage_eq hblock, List.length_append, List.length_replicate]
    show sizeofHeader + _ = _
    omega
  obtain ⟨accesses, hfind⟩ := cbiFindTag_initImage hblock req.tag
  obtain ⟨hfail, hsuccess⟩ := commonCbiSet_of_set hdenied (if_pos hinit)
    (cbiSetBoardInfo_absent hfind)
  constructor
  · intro hkeeps
    by_contra hfits
    -- the cleared image is left behind, and its checksum is wrong
    have hover : (initImage s.image).length <
        totalSize (initImage s.image) + sizeofData + req.value.length := by
      rw [hlength, totalSize_initImage hblock]
      exact Nat.not_le.mp hfits
    have happend := @appendItem_of_not_fits _ _ req.tag hover
    have hcrc := (hkeeps _ (hfail (by rw [happend]; nofun))).crc
    rw [happend] at hcrc
    exact cbiCrc8_initImage_ne hblock hcrc
  · intro hfits s' hs'
    refine absurd hs' (hsuccess (appendItem_of_fits ?_) s')
    rw [hlength, totalSize_initImage hblock]
    exact hfits

section Read

variable {accesses : List Access}

theorem read_of_synced (hs : s.cacheStatus = .synced) (hinit : req.init = false) :
    (if req.init then (Status.success, { s with image := initImage s.image })
      else cbiRead b.toConfig s) = (.success, s) := by
  rw [hinit, if_neg Bool.false_ne_true, cbiRead, hs]

theorem changesNothing_of_absent (h : Valid s.image) (hs : s.cacheStatus = .synced)
    (hdenied : req.denied b = false) (hinit : req.init = false)
    (hfind : cbiFindTag s.image req.tag = some (none, accesses))
    (hs' : commonCbiSet b req s = some (.invalidParam, s')) : ChangesNothing b.toConfig s s' := by
  obtain ⟨hfail, hsuccess⟩ := commonCbiSet_of_set hdenied (read_of_synced hs hinit)
    (cbiSetBoardInfo_absent hfind)
  by_cases hfits : totalSize s.image + sizeofData + req.value.length ≤ s.image.length
  · exact absurd hs' (hsuccess (appendItem_of_fits hfits) s')
  · have happend := @appendItem_of_not_fits _ _ req.tag (Nat.not_le.mp hfits)
    rw [happend] at hfail
    have hsame := congrArg Prod.snd (Option.some.inj ((hfail nofun).symm.trans hs'))
    dsimp only at hsame
    subst hsame
    exact .refl h

theorem commonCbiSet_same_size (hs : s.cacheStatus = .synced) (hdenied : req.denied b = false)
    (hinit : req.init = false) (hfind : cbiFindTag s.image req.tag = some (some d, accesses))
    (hsize : dataSize s.image d = req.value.length) (s' : State) :
    commonCbiSet b req s ≠ some (.invalidParam, s') :=
  (commonCbiSet_of_set hdenied (read_of_synced hs hinit)
    (cbiSetBoardInfo_overwritten hfind hsize)).2 rfl s'

theorem changesNothing_iff_of_resized (h : Valid s.image) (hs : s.cacheStatus = .synced)
    (hdenied : req.denied b = false) (hinit : req.init = false)
    (hfind : cbiFindTag s.image req.tag = some (some d, accesses))
    (hsize : dataSize s.image d ≠ req.value.length) :
    (∀ s', commonCbiSet b req s = some (.invalidParam, s') → ChangesNothing b.toConfig s s') ↔
      Fits req s.image (totalSize s.image - (sizeofData + dataSize s.image d)) := by
  obtain ⟨hlength, htotal⟩ := h.removed hfind
  obtain ⟨hfail, hsuccess⟩ := commonCbiSet_of_set hdenied (read_of_synced hs hinit)
    (cbiSetBoardInfo_resized hfind hsize)
  have hleft : totalSize s.image - (sizeofData + dataSize s.image d) =
      totalSize (cbiRemoveTag d s.image).1 := by omega
  constructor
  · intro hkeeps
    by_contra hfits
    -- the entry is gone, and `total_size` tells
    have hover : (cbiRemoveTag d s.image).1.length <
        totalSize (cbiRemoveTag d s.image).1 + sizeofData + req.value.length := by
      rw [hlength, ← hleft]
      exact Nat.not_le.mp hfits
    have happend := @appendItem_of_not_fits _ _ req.tag hover
    have hsame := (hkeeps _ (hfail (by rw [happend]; nofun))).total
    rw [happend] at hsame
    have hpos : 0 < sizeofData := by decide
    dsimp only at hsame
    omega
  · intro hfits s' hs'
    refine absurd hs' (hsuccess (appendItem_of_fits ?_) s')
    rw [hlength, ← hleft]
    exact hfits

end Read

theorem changesNothing_iff_of_read (h : Valid s.image) (hs : s.cacheStatus = .synced)
    (hdenied : req.denied b = false) (hinit : req.init = false) :
    (∀ s', commonCbiSet b req s = some (.invalidParam, s') → ChangesNothing b.toConfig s s') ↔
      ∀ d accesses, cbiFindTag s.image req.tag = some (some d, accesses) →
        dataSize s.image d = req.value.length ∨
          Fits req s.image (totalSize s.image - (sizeofData + dataSize s.image d)) := by
  obtain ⟨found, accesses, hfind, -⟩ := cbiFindTag_spec h.le_total req.tag
  constructor
  · intro hkeeps d accesses' hfound
    by_cases hsize : dataSize s.image d = req.value.length
    · exact Or.inl hsize
    · exact Or.inr ((changesNothing_iff_of_resized h hs hdenied hinit hfound hsize).mp hkeeps)
  · intro hcond s' hs'
    cases found with
    | none => exact changesNothing_of_absent h hs hdenied hinit hfind hs'
    | some d =>
      by_cases hsize : dataSize s.image d = req.value.length
      · exact absurd hs' (commonCbiSet_same_size hs hdenied hinit hfind hsize s')
      · have hfits := (hcond d accesses hfind).resolve_left hsize
        exact (changesNothing_iff_of_resized h hs hdenied hinit hfind hsize).mpr hfits s' hs'

/-- A request for which the value does not fit changes nothing, exactly where nothing was cleared or
removed for it. -/
theorem changesNothing_iff (h : Valid s.image) (hs : s.cacheStatus = .synced) :
    (∀ s', commonCbiSet b req s = some (.invalidParam, s') → ChangesNothing b.toConfig s s') ↔
      KeepsOnFailure b req s.image := by
  rw [KeepsOnFailure]
  cases hdenied : req.denied b with
  | true =>
    have hcommand : commonCbiSet b req s = some (.accessDenied, s) := by
      rw [commonCbiSet, hdenied]
      rfl
    refine ⟨fun _ => Or.inl rfl, fun _ s' hs' => ?_⟩
    rw [hcommand] at hs'
    cases hs'
  | false =>
    rw [or_iff_right Bool.false_ne_true]
    cases hinit : req.init with
    | true => rw [if_pos rfl, changesNothing_iff_of_init h hdenied hinit]
    | false => rw [if_neg Bool.false_ne_true, changesNothing_iff_of_read h hs hdenied hinit]

/-! ## A value of 255 bytes -/

/-- An unprotected storage of 256 bytes, in which the model id is the only entry -/
def wholeBoard : Board where
  toConfig := storageOf wholeImage
  systemUnlocked := false
  isProtected := false
  store _ := true

def wholeState : State :=
  ⟨wholeImage ++ List.replicate 245 0, .synced⟩

/-- A value of 255 bytes, which fits no block of 256 bytes -/
def setLong (tag : Nat) (init : Bool) : SetRequest :=
  ⟨tag, true, init, List.replicate 255 7⟩

theorem valid_whole : Valid wholeState.image where
  magic := by decide +kernel
  version := by decide +kernel
  le_total := by decide +kernel
  total_le := by decide +kernel
  crc := by decide +kernel
  contained := by
    intro p hp
    have htotal : totalSize wholeState.image = 11 := by decide +kernel
    rcases hp.eq_or_next with rfl | hp
    · exact Or.inl (by decide +kernel)
    · have hle : nextEntry wholeState.image sizeofHeader ≤ p := hp.le
      have hlt := hp.lt_totalSize
      have hnext : nextEntry wholeState.image sizeofHeader = 11 := by decide +kernel
      omega

/-- A tag without an entry fails to be set, and nothing changes. -/
theorem changesNothing_iff_absent :
    commonCbiSet wholeBoard (setLong 6 false) wholeState = some (.invalidParam, wholeState) ∧
      ChangesNothing wholeBoard.toConfig wholeState wholeState := by
  have hcommand : commonCbiSet wholeBoard (setLong 6 false) wholeState =
      some (.invalidParam, wholeState) := by decide +kernel
  refine ⟨hcommand, (changesNothing_iff valid_whole rfl).mpr ?_ _ hcommand⟩
  have hfind : (cbiFindTag wholeState.image 6).map Prod.fst = some none := by decide +kernel
  refine Or.inr fun d accesses hfound => ?_
  have hnone := congrArg (Option.map Prod.fst) hfound
  rw [show (setLong 6 false).tag = 6 from rfl, hfind] at hnone
  cases hnone

/-- The model id fails to be set, and it is lost; and so it is with `CBI_SET_INIT`. -/
theorem not_changesNothing_resized :
    Valid wholeState.image ∧
      (∀ init, (∃ s', commonCbiSet wholeBoard (setLong 5 init) wholeState =
          some (.invalidParam, s') ∧ s'.cacheStatus = .synced ∧
          ¬ChangesNothing wholeBoard.toConfig wholeState s' ∧
          cbiCrc8 s'.image ≠ byteAt s'.image 3 ∧
          (cbiGetBoardInfo wholeBoard.toConfig 5 [0] s').map (·.1.status) = some .errorUnknown)) ∧
      (cbiGetBoardInfo wholeBoard.toConfig 5 [0] wholeState).map (·.1.buf) = some [7] := by
  refine ⟨valid_whole, fun init => ?_, by decide +kernel⟩
  cases init
  · refine ⟨((commonCbiSet wholeBoard (setLong 5 false) wholeState).getD (.error, wholeState)).2,
      by decide +kernel, by decide +kernel, ?_, by decide +kernel, by decide +kernel⟩
    intro h
    exact absurd h.crc (by decide +kernel)
  · refine ⟨((commonCbiSet wholeBoard (setLong 5 true) wholeState).getD (.error, wholeState)).2,
      by decide +kernel, by decide +kernel, ?_, by decide +kernel, by decide +kernel⟩
    intro h
    exact absurd h.crc (by decide +kernel)

end ChromiumEc.Cbi
