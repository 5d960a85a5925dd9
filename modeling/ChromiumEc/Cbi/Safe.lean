import ChromiumEc.Cbi.Image

/-!
# Safe — parsing an accepted image

The loop over the entries ends on every image, and reads inside it.  An operation on an entry trusts
its size.  It is inside the image exactly when every entry that a tag can find ends inside it.
-/

namespace ChromiumEc.Cbi

variable {cfg : Config} {image : List UInt8} {tag p q n : Nat}

/-! ## Entries -/

/-- The entry behind the one at `p` -/
def nextEntry (image : List UInt8) (p : Nat) : Nat :=
  p + sizeofData + dataSize image p

/-- The entries that a walk from `p` on passes; their headers are inside the image. -/
inductive EntryFrom (image : List UInt8) : Nat → Nat → Prop
  | here {p : Nat} : p + sizeofData < totalSize image → EntryFrom image p p
  | next {p q : Nat} : p + sizeofData < totalSize image → EntryFrom image (nextEntry image p) q →
      EntryFrom image p q

namespace EntryFrom

theorem le (h : EntryFrom image p q) : p ≤ q := by
  induction h with
  | here _ => exact Nat.le_refl _
  | next _ _ ih =>
    unfold nextEntry at ih
    omega

theorem lt_totalSize (h : EntryFrom image p q) : q + sizeofData < totalSize image := by
  induction h with
  | here hlt => exact hlt
  | next _ _ ih => exact ih

theorem eq_or_next (h : EntryFrom image p q) : q = p ∨ EntryFrom image (nextEntry image p) q := by
  cases h with
  | here _ => exact .inl rfl
  | next _ h => exact .inr h

end EntryFrom

/-- The outcome of a walk from `p` on: the first entry of the tag -/
def FoundFrom (image : List UInt8) (tag p : Nat) : Option Nat → Prop
  | none => ∀ q, EntryFrom image p q → (byteAt image q).toNat ≠ tag
  | some d => EntryFrom image p d ∧ (byteAt image d).toNat = tag ∧
      ∀ q, EntryFrom image p q → q < d → (byteAt image q).toNat ≠ tag

/-- The bytes are inside `total_size`, those of a new entry inside the whole block. -/
def Access.Inside (image : List UInt8) (a : Access) : Prop :=
  a.off + a.len ≤ if a.append then image.length else totalSize image

/-- Every entry that a tag finds ends inside the image.  Only the last entry of the walk can go
beyond it, and it is not found if an earlier entry has its tag. -/
def Contained (image : List UInt8) : Prop :=
  ∀ p, EntryFrom image sizeofHeader p → nextEntry image p ≤ totalSize image ∨
    ∃ q, EntryFrom image sizeofHeader q ∧ q < p ∧ byteAt image q = byteAt image p

/-! ## The walk -/

theorem findLoop_spec (hn : 0 < n) (hfuel : totalSize image < p + sizeofData * n) :
    ∃ found accesses, findLoop image tag n p = some (found, accesses) ∧
      (∀ a ∈ accesses, a.Inside image) ∧ FoundFrom image tag p found := by
  induction n generalizing p with
  | zero => exact absurd hn (Nat.lt_irrefl 0)
  | succ n ih =>
    unfold findLoop
    by_cases hlt : p + sizeofData < totalSize image
    · have hread : (⟨p, 1, false⟩ : Access).Inside image := by
        show p + 1 ≤ totalSize image
        omega
      have hsize : (⟨p + 1, 1, false⟩ : Access).Inside image := by
        show p + 1 + 1 ≤ totalSize image
        unfold sizeofData at hlt
        omega
      rw [if_pos hlt]
      by_cases htag : (byteAt image p).toNat = tag
      · rw [if_pos htag]
        refine ⟨_, _, rfl, ?_, .here hlt, htag, ?_⟩
        · intro a ha
          rw [List.mem_singleton.mp ha]
          exact hread
        · intro q hq hqp
          exact absurd hq.le (by omega)
      · have hfuel' : totalSize image < nextEntry image p + sizeofData * n := by
          unfold nextEntry sizeofData at *
          omega
        have hpos : 0 < n := by
          unfold sizeofData at *
          omega
        obtain ⟨found, accesses, heq, hins, hfound⟩ := ih hpos hfuel'
        unfold nextEntry dataSize at heq
        rw [if_neg htag, heq]
        refine ⟨found, _, rfl, ?_, ?_⟩
        · intro a ha
          rcases List.mem_cons.mp ha with rfl | ha
          · exact hread
          rcases List.mem_cons.mp ha with rfl | ha
          · exact hsize
          · exact hins a ha
        · cases found with
          | none =>
            intro q hq
            rcases hq.eq_or_next with rfl | hq
            · exact htag
            · exact hfound q hq
          | some d =>
            refine ⟨.next hlt hfound.1, hfound.2.1, ?_⟩
            intro q hq hqd
            rcases hq.eq_or_next with rfl | hq
            · exact htag
            · exact hfound.2.2 q hq hqd
    · rw [if_neg hlt]
      refine ⟨none, [], rfl, fun a ha => absurd ha List.not_mem_nil, ?_⟩
      intro q hq
      have hle := hq.le
      have hend := hq.lt_totalSize
      omega

theorem cbiFindTag_spec (hsize : sizeofHeader ≤ totalSize image) (tag : Nat) :
    ∃ found accesses, cbiFindTag image tag = some (found, accesses) ∧
      (∀ a ∈ accesses, a.Inside image) ∧ FoundFrom image tag sizeofHeader found := by
  refine findLoop_spec ?_ ?_
  · unfold sizeofHeader at hsize
    omega
  · unfold sizeofHeader sizeofData at *
    omega

theorem Contained.found (h : Contained image) (hfound : FoundFrom image tag sizeofHeader (some p)) :
    nextEntry image p ≤ totalSize image := by
  obtain ⟨hentry, htag, hfirst⟩ := hfound
  rcases h p hentry with hle | ⟨q, hq, hqp, heq⟩
  · exact hle
  · exact absurd (heq ▸ htag) (hfirst q hq hqp)

/-! ## The header -/

theorem byteAt_set_ne {i j : Nat} {v : UInt8} (h : i ≠ j) :
    byteAt (image.set i v) j = byteAt image j := by
  unfold byteAt
  rw [List.getD_eq_getElem?_getD, List.getElem?_set_ne h, ← List.getD_eq_getElem?_getD]

theorem byteAt_set_self {i : Nat} {v : UInt8} (h : i < image.length) :
    byteAt (image.set i v) i = v := by
  unfold byteAt
  rw [List.getD_eq_getElem?_getD, List.getElem?_set_self h]
  rfl

@[simp] theorem length_setTotalSize : (setTotalSize n image).length = image.length := by
  simp [setTotalSize]

theorem totalSize_setTotalSize (h : sizeofHeader ≤ image.length) (hn : n < 2 ^ 16) :
    totalSize (setTotalSize n image) = n := by
  unfold sizeofHeader at h
  have hlo : byteAt (setTotalSize n image) 6 = UInt8.ofNat (n % 256) := by
    unfold setTotalSize
    rw [byteAt_set_ne (by decide), byteAt_set_self (by omega)]
  have hhi : byteAt (setTotalSize n image) 7 = UInt8.ofNat (n / 256 % 256) := by
    unfold setTotalSize
    rw [byteAt_set_self (by rw [List.length_set]; omega)]
  unfold totalSize
  rw [hlo, hhi, UInt8.toNat_ofNat', UInt8.toNat_ofNat']
  omega

theorem totalSize_lt (image : List UInt8) : totalSize image < 2 ^ 16 := by
  have hlo := (byteAt image 6).toNat_lt
  have hhi := (byteAt image 7).toNat_lt
  unfold totalSize
  omega

theorem doCbiRead_success {image₀ : List UInt8} (hlen : sizeofHeader ≤ image₀.length)
    (h : doCbiRead cfg image₀ = (.success, image)) :
    image.length = image₀.length ∧ sizeofHeader ≤ totalSize image ∧
      totalSize image ≤ image.length := by
  revert h
  unfold doCbiRead
  cases hheader : cfg.load 0 sizeofHeader with
  | none => nofun
  | some header =>
    have hhlen := cfg.load_length _ _ _ hheader
    have hlen₁ : (Lib.memcpy image₀ 0 header).length = image₀.length :=
      Lib.length_memcpy (by omega)
    dsimp only
    by_cases hmagic : (Lib.memcpy image₀ 0 header).take 3 ≠ cbiMagic
    · rw [if_pos hmagic]
      nofun
    rw [if_neg hmagic]
    by_cases hversion : cbiVersionMajor < byteAt (Lib.memcpy image₀ 0 header) 5
    · rw [if_pos hversion]
      nofun
    rw [if_neg hversion]
    by_cases hsize : totalSize (Lib.memcpy image₀ 0 header) < sizeofHeader ∨
        (Lib.memcpy image₀ 0 header).length < totalSize (Lib.memcpy image₀ 0 header)
    · rw [if_pos hsize]
      nofun
    rw [if_neg hsize]
    cases hbody : cfg.load sizeofHeader
        (totalSize (Lib.memcpy image₀ 0 header) - sizeofHeader) with
    | none => nofun
    | some body =>
      have hblen := cfg.load_length _ _ _ hbody
      dsimp only
      split
      · nofun
      · intro heq
        have himage := congrArg Prod.snd heq
        dsimp only at himage
        have hkeep : ∀ i, i < sizeofHeader →
            byteAt image i = byteAt (Lib.memcpy image₀ 0 header) i := by
          intro i hi
          rw [← himage]
          exact Lib.getD_memcpy_of_lt hi (by omega) 0
        have htotal : totalSize image = totalSize (Lib.memcpy image₀ 0 header) := by
          unfold totalSize
          rw [hkeep 6 (by decide), hkeep 7 (by decide)]
        have hlen₂ : image.length = image₀.length := by
          rw [← himage, Lib.length_memcpy (by omega), hlen₁]
        omega

/-! ## The operations -/

/-- Every search ends, every operation accesses only bytes inside the image, and `total_size` gets
smaller by the size of a removed entry. -/
structure Safe (cfg : Config) (image : List UInt8) : Prop where
  find : ∀ tag, ∃ found accesses, cbiFindTag image tag = some (found, accesses) ∧
    ∀ a ∈ accesses, a.Inside image
  get : ∀ tag buf, buf.length < 2 ^ 8 → ∃ result s',
    cbiGetBoardInfo cfg tag buf ⟨image, .synced⟩ = some (result, s') ∧
      ∀ a ∈ result.accesses, a.Inside image
  set : ∀ tag value, value.length < 2 ^ 8 → ∃ status image' accesses,
    cbiSetBoardInfo tag value image = some (status, image', accesses) ∧
      ∀ a ∈ accesses, a.Inside image
  remove : ∀ tag d accesses, cbiFindTag image tag = some (some d, accesses) →
    (∀ a ∈ (cbiRemoveTag d image).2, a.Inside image) ∧
      totalSize (cbiRemoveTag d image).1 + (sizeofData + dataSize image d) = totalSize image

theorem mem_append_inside {l l' : List Access} (h : ∀ a ∈ l, a.Inside image)
    (h' : ∀ a ∈ l', a.Inside image) : ∀ a ∈ l ++ l', a.Inside image := by
  intro a ha
  rcases List.mem_append.mp ha with ha | ha
  · exact h a ha
  · exact h' a ha

theorem mem_singleton_inside {a : Access} (h : a.Inside image) : ∀ b ∈ [a], b.Inside image := by
  intro b hb
  rw [List.mem_singleton.mp hb]
  exact h

theorem EntryFrom.inside_size (h : EntryFrom image p q) :
    ∀ a ∈ [(⟨q + 1, 1, false⟩ : Access)], a.Inside image := by
  refine mem_singleton_inside ?_
  have hlt := h.lt_totalSize
  show q + 1 + 1 ≤ totalSize image
  unfold sizeofData at hlt
  omega

theorem length_cbiRemoveTag (hend : nextEntry image p ≤ totalSize image)
    (hlen : totalSize image ≤ image.length) :
    (cbiRemoveTag p image).1.length = image.length := by
  have hlt := totalSize_lt image
  unfold cbiRemoveTag
  dsimp only
  rw [length_setTotalSize]
  refine Lib.length_memcpy ?_
  rw [List.length_take, List.length_drop]
  unfold nextEntry at hend
  omega

theorem cbiRemoveTag_spec (hentry : EntryFrom image sizeofHeader p)
    (hend : nextEntry image p ≤ totalSize image) (hlen : totalSize image ≤ image.length) :
    (∀ a ∈ (cbiRemoveTag p image).2, a.Inside image) ∧
      totalSize (cbiRemoveTag p image).1 + (sizeofData + dataSize image p) = totalSize image := by
  have hlt := totalSize_lt image
  have hle := hentry.le
  have hsize := hentry.inside_size
  unfold nextEntry at hend
  have hmove : (totalSize image + 2 ^ 32 - (p + (sizeofData + dataSize image p))) % 2 ^ 32 =
      totalSize image - (p + (sizeofData + dataSize image p)) := by
    omega
  constructor
  · unfold cbiRemoveTag
    dsimp only
    rw [hmove]
    refine mem_append_inside hsize (mem_append_inside (l := [_]) ?_ ?_)
    · refine mem_singleton_inside ?_
      show _ + _ ≤ totalSize image
      dsimp only
      omega
    · refine mem_singleton_inside ?_
      show _ + _ ≤ totalSize image
      dsimp only
      omega
  · have hlen' : (Lib.memcpy image p ((image.drop (p + (sizeofData + dataSize image p))).take
        (totalSize image - (p + (sizeofData + dataSize image p))))).length = image.length := by
      refine Lib.length_memcpy ?_
      rw [List.length_take, List.length_drop]
      omega
    unfold cbiRemoveTag
    dsimp only
    rw [hmove, totalSize_setTotalSize _ (Nat.mod_lt _ (by decide))]
    · omega
    · rw [hlen']
      omega

theorem appendItem_inside {value : List UInt8} {image' : List UInt8}
    (hlen : image'.length = image.length) :
    ∀ a ∈ (appendItem tag value image').2.2, a.Inside image := by
  unfold appendItem
  split
  · exact fun a ha => absurd ha List.not_mem_nil
  · rename_i hfit
    refine mem_singleton_inside ?_
    show _ + _ ≤ image.length
    unfold cbiSetData
    dsimp only
    split
    · dsimp only
      omega
    · dsimp only
      omega

theorem cbiGetBoardInfo_inside (hsize : sizeofHeader ≤ totalSize image) (hc : Contained image)
    (tag : Nat) (buf : List UInt8) : ∃ result s',
      cbiGetBoardInfo cfg tag buf ⟨image, .synced⟩ = some (result, s') ∧
        ∀ a ∈ result.accesses, a.Inside image := by
  obtain ⟨found, accesses, hfind, hins, hfound⟩ := cbiFindTag_spec hsize tag
  cases found with
  | none => exact ⟨_, _, cbiGetBoardInfo_absent hfind, hins⟩
  | some d =>
    have hend := hc.found hfound
    have hread := mem_append_inside hins hfound.1.inside_size
    by_cases hshort : buf.length < dataSize image d
    · exact ⟨_, _, cbiGetBoardInfo_short hfind hshort, hread⟩
    · refine ⟨_, _, cbiGetBoardInfo_found hfind (Nat.not_lt.mp hshort), ?_⟩
      refine mem_append_inside hread (mem_singleton_inside ?_)
      show d + sizeofData + dataSize image d ≤ totalSize image
      exact hend

theorem cbiSetBoardInfo_inside (hsize : sizeofHeader ≤ totalSize image)
    (hlen : totalSize image ≤ image.length) (hc : Contained image) (tag : Nat)
    (value : List UInt8) : ∃ status image' accesses,
      cbiSetBoardInfo tag value image = some (status, image', accesses) ∧
        ∀ a ∈ accesses, a.Inside image := by
  obtain ⟨found, accesses, hfind, hins, hfound⟩ := cbiFindTag_spec hsize tag
  cases found with
  | none =>
    refine ⟨_, _, _, cbiSetBoardInfo_absent hfind, mem_append_inside hins ?_⟩
    exact appendItem_inside rfl
  | some d =>
    have hend := hc.found hfound
    have hread := mem_append_inside hins hfound.1.inside_size
    by_cases hresized : dataSize image d ≠ value.length
    · refine ⟨_, _, _, cbiSetBoardInfo_resized hfind hresized, ?_⟩
      refine mem_append_inside (mem_append_inside hread ?_) ?_
      · exact (cbiRemoveTag_spec hfound.1 hend hlen).1
      · exact appendItem_inside (length_cbiRemoveTag hend hlen)
    · refine ⟨_, _, _, cbiSetBoardInfo_overwritten hfind (not_not.mp hresized), ?_⟩
      refine mem_append_inside hread (mem_singleton_inside ?_)
      show d + sizeofData + dataSize image d ≤ totalSize image
      exact hend

theorem Contained.safe (hsize : sizeofHeader ≤ totalSize image)
    (hlen : totalSize image ≤ image.length) (hc : Contained image) : Safe cfg image where
  find tag := by
    obtain ⟨found, accesses, hfind, hins, -⟩ := cbiFindTag_spec hsize tag
    exact ⟨found, accesses, hfind, hins⟩
  get tag buf _ := cbiGetBoardInfo_inside hsize hc tag buf
  set tag value _ := cbiSetBoardInfo_inside hsize hlen hc tag value
  remove tag d accesses hfind := by
    obtain ⟨found, accesses', hfind', -, hfound⟩ := cbiFindTag_spec hsize tag
    have heq : some d = found := by
      rw [hfind] at hfind'
      exact congrArg Prod.fst (Option.some.inj hfind')
    subst heq
    exact cbiRemoveTag_spec hfound.1 (hc.found hfound) hlen

theorem FoundFrom.eq_of_first {found : Option Nat}
    (h : FoundFrom image (byteAt image p).toNat sizeofHeader found)
    (hp : EntryFrom image sizeofHeader p)
    (hfirst : ∀ q, EntryFrom image sizeofHeader q → q < p → byteAt image q ≠ byteAt image p) :
    found = some p := by
  cases found with
  | none => exact absurd rfl (h p hp)
  | some d =>
    obtain ⟨hd, htag, hmin⟩ := h
    rcases Nat.lt_trichotomy d p with hlt | heq | hlt
    · exact absurd (UInt8.toNat_inj.mp htag) (hfirst d hd hlt)
    · rw [heq]
    · exact absurd rfl (hmin p hp hlt)

theorem Safe.contained (hsize : sizeofHeader ≤ totalSize image) (h : Safe cfg image) :
    Contained image := by
  intro p hp
  by_contra hout
  obtain ⟨hend, hfirst⟩ := not_or.mp hout
  obtain ⟨found, accesses, hfind, -, hfound⟩ := cbiFindTag_spec hsize (byteAt image p).toNat
  have heq : found = some p := by
    refine hfound.eq_of_first hp ?_
    intro q hq hlt hbyte
    exact hfirst ⟨q, hq, hlt, hbyte⟩
  subst heq
  -- a buffer of the greatest size takes every value
  obtain ⟨buf, hbuf⟩ : ∃ buf : List UInt8, buf.length = 255 :=
    ⟨List.replicate 255 0, List.length_replicate⟩
  have hfits : dataSize image p ≤ buf.length := by
    have hbyte := (byteAt image (p + 1)).toNat_lt
    unfold dataSize
    omega
  obtain ⟨result, s', hget, hins⟩ := h.get (byteAt image p).toNat buf (by omega)
  rw [cbiGetBoardInfo_found hfind hfits] at hget
  have hresult := congrArg Prod.fst (Option.some.inj hget)
  dsimp only at hresult
  refine hend (hins ⟨p + sizeofData, dataSize image p, false⟩ ?_)
  rw [← hresult]
  exact List.mem_append_right _ (List.mem_singleton.mpr rfl)

/-! ## The main result -/

/-- The operations on an accepted image are safe exactly when the entries that a tag can find end
inside it. -/
theorem safe_iff_contained {image₀ : List UInt8} (hlen : sizeofHeader ≤ image₀.length)
    (hread : doCbiRead cfg image₀ = (.success, image)) : Safe cfg image ↔ Contained image := by
  obtain ⟨hlength, hsize, htotal⟩ := doCbiRead_success hlen hread
  exact ⟨fun h => h.contained hsize, fun hc => hc.safe hsize htotal⟩

def storageOf (bytes : List UInt8) : Config where
  storageGpio := false
  load off n := some ((List.range n).map fun i => byteAt bytes (off + i))
  load_length _ _ _ h := by
    cases h
    rw [List.length_map, List.length_range]

def wholeImage : List UInt8 :=
  [0x43, 0x42, 0x49, 127, 0, 0, 11, 0, 5, 1, 7]

theorem safe_iff_contained_whole :
    doCbiRead (storageOf wholeImage) (List.replicate 11 0) = (.success, wholeImage) ∧
      Safe (storageOf wholeImage) wholeImage := by
  have hread : doCbiRead (storageOf wholeImage) (List.replicate 11 0) = (.success, wholeImage) := by
    decide +kernel
  refine ⟨hread, (safe_iff_contained (by decide) hread).mpr ?_⟩
  intro p hp
  have htotal : totalSize wholeImage = 11 := by decide
  rcases hp.eq_or_next with rfl | hp
  · exact .inl (by decide)
  · have hle : nextEntry wholeImage sizeofHeader ≤ p := hp.le
    have hlt := hp.lt_totalSize
    have hnext : nextEntry wholeImage sizeofHeader = 11 := by decide
    omega

/-- The only entry claims 255 bytes, of which the image has one. -/
def overrunImage : List UInt8 :=
  [0x43, 0x42, 0x49, 168, 0, 0, 11, 0, 5, 255, 0]

/-- The image is accepted, and its entry is not inside it. -/
theorem not_safe_overrun :
    doCbiRead (storageOf overrunImage) (List.replicate 256 0) =
        (.success, overrunImage ++ List.replicate 245 0) ∧
      ¬ Safe (storageOf overrunImage) (overrunImage ++ List.replicate 245 0) := by
  have htotal : totalSize (overrunImage ++ List.replicate 245 0) = 11 := by decide +kernel
  refine ⟨by decide +kernel, fun h => ?_⟩
  have hentry : EntryFrom (overrunImage ++ List.replicate 245 0) sizeofHeader 8 :=
    .here (by rw [htotal]; decide)
  have hnext : nextEntry (overrunImage ++ List.replicate 245 0) 8 = 265 := by decide +kernel
  have hsize : sizeofHeader ≤ totalSize (overrunImage ++ List.replicate 245 0) := by
    rw [htotal]
    decide
  rcases h.contained hsize 8 hentry with hle | ⟨q, hq, hlt, -⟩
  · omega
  · exact absurd hq.le (by unfold sizeofHeader; omega)

end ChromiumEc.Cbi
