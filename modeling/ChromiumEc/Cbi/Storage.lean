import ChromiumEc.Cbi.Set
import ChromiumEc.Cbi.Store

/-!
# Storage — what was written is read back

An image with the version and the checksum of `common_cbi_set` is accepted when it is loaded again,
and holds the same map.  A single byte that has changed in the storage is noticed, unless it is one
of the size.
-/

namespace ChromiumEc.Cbi

variable {bytes ram image : List UInt8} {entries : List Entry} {i : Nat} {x : UInt8}

/-! ## The checksum -/

/-- The register of the checksum, which is in its upper byte, after one more byte -/
def crcByte (crc : UInt32) (b : UInt8) : UInt32 :=
  (List.range 8).foldl (fun crc _ => crcBit crc) (crc ^^^ (b.toUInt32 <<< 8))

def crcNext (x : UInt8) : UInt8 :=
  (crcByte 0 x >>> 8).toUInt8

/-- The eight steps, taken back: whether the polynomial was added shows in bit 7. -/
def crcBack (crc : UInt32) : UInt32 :=
  (List.range 8).foldl (fun crc _ => if (crc >>> 1) &&& 0x80 ≠ 0 then
    (crc >>> 1) ^^^ ((0x1070 : UInt32) <<< 3) else crc >>> 1) crc

theorem crcByte_zero (x : UInt8) : crcByte 0 x = (crcNext x).toUInt32 <<< 8 ∧
    crcBack (crcByte 0 x) = x.toUInt32 <<< 8 ∧ ((x.toUInt32 <<< 8) >>> 8).toUInt8 = x := by
  have hall : ∀ n < 256, crcByte 0 (UInt8.ofNat n) = (crcNext (UInt8.ofNat n)).toUInt32 <<< 8 ∧
      crcBack (crcByte 0 (UInt8.ofNat n)) = (UInt8.ofNat n).toUInt32 <<< 8 ∧
      (((UInt8.ofNat n).toUInt32 <<< 8) >>> 8).toUInt8 = UInt8.ofNat n := by
    decide +kernel
  simpa only [UInt8.ofNat_toNat] using hall x.toNat x.toNat_lt

theorem crcNext_injective : Function.Injective crcNext := by
  intro x y h
  rw [← (crcByte_zero x).2.2, ← (crcByte_zero y).2.2, ← (crcByte_zero x).2.1,
    ← (crcByte_zero y).2.1, (crcByte_zero x).1, (crcByte_zero y).1, h]

theorem crcByte_eq (c b : UInt8) :
    crcByte (c.toUInt32 <<< 8) b = (crcNext (c ^^^ b)).toUInt32 <<< 8 := by
  rw [← (crcByte_zero _).1, crcByte, crcByte, UInt32.zero_xor, UInt8.toUInt32_xor,
    UInt32.shiftLeft_xor]

theorem crosCrc8_eq (l : List UInt8) : crosCrc8 l = l.foldl (fun c b => crcNext (c ^^^ b)) 0 := by
  have hfold : ∀ c : UInt8, l.foldl crcByte (c.toUInt32 <<< 8) =
      (l.foldl (fun c b => crcNext (c ^^^ b)) c).toUInt32 <<< 8 := by
    induction l with
    | nil => exact fun _ => rfl
    | cons b l ih =>
      intro c
      rw [List.foldl_cons, List.foldl_cons, crcByte_eq, ih]
  show (l.foldl crcByte ((0 : UInt8).toUInt32 <<< 8) >>> 8).toUInt8 = _
  rw [hfold, (crcByte_zero _).2.2]

theorem foldl_crcNext_injective (l : List UInt8) :
    Function.Injective (l.foldl fun c b => crcNext (c ^^^ b)) := by
  induction l with
  | nil => exact fun _ _ h => h
  | cons b l ih =>
    intro c c' h
    exact (UInt8.xor_left_inj b).mp (crcNext_injective (ih h))

/-- A byte that changes, changes the checksum. -/
theorem crosCrc8_ne {l l' : List UInt8} {x y : UInt8} (hne : x ≠ y) :
    crosCrc8 (l ++ x :: l') ≠ crosCrc8 (l ++ y :: l') := by
  intro h
  rw [crosCrc8_eq, crosCrc8_eq, List.foldl_append, List.foldl_append] at h
  exact hne ((UInt8.xor_right_inj _).mp (crcNext_injective (foldl_crcNext_injective l' h)))

/-! ## Loading -/

/-- What `do_cbi_read` asks of the bytes in the storage -/
structure Accepted (bytes : List UInt8) : Prop where
  magic : bytes.take 3 = cbiMagic
  version : ¬cbiVersionMajor < byteAt bytes 5
  le_total : sizeofHeader ≤ totalSize bytes
  total_le : totalSize bytes ≤ bytes.length
  crc : cbiCrc8 bytes = byteAt bytes 3

theorem load_storageOf {off n : Nat} (h : off + n ≤ bytes.length) :
    (storageOf bytes).load off n = some ((bytes.drop off).take n) := by
  refine congrArg some (List.ext_getElem (by simp; omega) fun i h₁ h₂ => ?_)
  simp only [List.length_map, List.length_range] at h₁
  simp [byteAt, List.getElem?_eq_getElem (show off + i < bytes.length by omega)]

theorem byteAt_append_left {l l' : List UInt8} (h : i < l.length) :
    byteAt (l ++ l') i = byteAt l i := by
  rw [byteAt, byteAt, List.getD_eq_getElem?_getD, List.getElem?_append_left h,
    ← List.getD_eq_getElem?_getD]

theorem byteAt_take {n : Nat} (hi : i < n) (rest : List UInt8) (hn : n ≤ bytes.length) :
    byteAt (bytes.take n ++ rest) i = byteAt bytes i := by
  rw [byteAt_append_left (by rw [List.length_take]; omega), byteAt, byteAt,
    List.getD_eq_getElem?_getD, List.getElem?_take_of_lt hi, ← List.getD_eq_getElem?_getD]

/-- The header, and with it the bytes that say how much there is -/
theorem totalSize_take {n : Nat} (h8 : sizeofHeader ≤ n) (rest : List UInt8)
    (hn : n ≤ bytes.length) : totalSize (bytes.take n ++ rest) = totalSize bytes := by
  unfold sizeofHeader at h8
  rw [totalSize, totalSize, byteAt_take (by omega) rest hn, byteAt_take (by omega) rest hn]

theorem cbiCrc8_take (h8 : sizeofHeader ≤ totalSize bytes) (hle : totalSize bytes ≤ bytes.length)
    (rest : List UInt8) : cbiCrc8 (bytes.take (totalSize bytes) ++ rest) = cbiCrc8 bytes := by
  have htotal := totalSize_take h8 rest hle
  unfold sizeofHeader at h8
  rw [cbiCrc8, cbiCrc8, htotal, List.drop_append_of_le_length (by rw [List.length_take]; omega),
    List.take_append_of_le_length (by rw [List.length_drop, List.length_take]; omega),
    List.drop_take, List.take_take, Nat.min_eq_left (by omega)]

/-- A storage of the size of the block is read up to the size that it says it has. -/
theorem doCbiRead_storageOf (hram : ram.length = bytes.length) (h8 : sizeofHeader ≤ bytes.length) :
    (Accepted bytes → doCbiRead (storageOf bytes) ram =
      (.success, bytes.take (totalSize bytes) ++ ram.drop (totalSize bytes))) ∧
      ((doCbiRead (storageOf bytes) ram).1 = .success → Accepted bytes) := by
  have hheader : Lib.memcpy ram 0 (bytes.take sizeofHeader) =
      bytes.take sizeofHeader ++ ram.drop sizeofHeader := by
    rw [Lib.memcpy, List.take_zero, List.nil_append, Nat.zero_add, List.length_take,
      Nat.min_eq_left h8]
  have hmagic : (bytes.take sizeofHeader ++ ram.drop sizeofHeader).take 3 = bytes.take 3 := by
    rw [List.take_append_of_le_length (by rw [List.length_take, Nat.min_eq_left h8]; decide),
      List.take_take]
    rfl
  have hversion : byteAt (bytes.take sizeofHeader ++ ram.drop sizeofHeader) 5 = byteAt bytes 5 :=
    byteAt_take (by decide) _ h8
  have htotal := totalSize_take (Nat.le_refl _) (ram.drop sizeofHeader) h8
  have hlength : (bytes.take sizeofHeader ++ ram.drop sizeofHeader).length = bytes.length := by
    rw [List.length_append, List.length_take, List.length_drop]
    omega
  rw [doCbiRead, load_storageOf (by rw [Nat.zero_add]; exact h8)]
  dsimp only
  rw [List.drop_zero, hheader, hmagic, hversion, htotal, hlength]
  split_ifs with hm hv hs
  · exact ⟨fun h => absurd h.magic hm, by rintro ⟨⟩⟩
  · exact ⟨fun h => absurd hv h.version, by rintro ⟨⟩⟩
  · exact ⟨fun h => by have := h.le_total; have := h.total_le; omega, by rintro ⟨⟩⟩
  -- the body goes behind the header, and then the image is that of the storage
  have hbody : Lib.memcpy (bytes.take sizeofHeader ++ ram.drop sizeofHeader) sizeofHeader
      ((bytes.drop sizeofHeader).take (totalSize bytes - sizeofHeader)) =
      bytes.take (totalSize bytes) ++ ram.drop (totalSize bytes) := by
    have hcopy := Lib.memcpy_append (bytes.take sizeofHeader) (ram.drop sizeofHeader)
      ((bytes.drop sizeofHeader).take (totalSize bytes - sizeofHeader))
    rw [List.length_take, Nat.min_eq_left h8] at hcopy
    rw [hcopy, List.drop_drop, List.length_take, List.length_drop, ← List.take_add,
      Nat.min_eq_left (by omega), Nat.add_sub_cancel' (by omega)]
  rw [load_storageOf (by omega)]
  dsimp only
  rw [hbody, cbiCrc8_take (by omega) (by omega),
    byteAt_take (show 3 < _ by unfold sizeofHeader at hs; omega) _ (by omega)]
  by_cases hcrc : cbiCrc8 bytes = byteAt bytes 3
  · rw [if_neg fun h => h.2 hcrc]
    exact ⟨fun _ => rfl, fun _ => ⟨not_not.mp hm, hv, by omega, by omega, hcrc⟩⟩
  · rw [if_pos ⟨rfl, hcrc⟩]
    exact ⟨fun h => absurd h.crc hcrc, by rintro ⟨⟩⟩

theorem cbiCrc8_set_crc : cbiCrc8 (bytes.set 3 x) = cbiCrc8 bytes := by
  rw [cbiCrc8, cbiCrc8, totalSize, totalSize, byteAt_set_ne (by decide), byteAt_set_ne (by decide),
    List.drop_set, if_pos (by decide)]

/-- A byte of the part that the checksum covers -/
theorem cbiCrc8_set_ne (hi : 4 ≤ i) (hlt : i < totalSize bytes) (hle : totalSize bytes ≤ bytes.length)
    (hsize : i ≠ 6 ∧ i ≠ 7) (hx : x ≠ byteAt bytes i) : cbiCrc8 (bytes.set i x) ≠ cbiCrc8 bytes := by
  have htotal : totalSize (bytes.set i x) = totalSize bytes := by
    rw [totalSize, totalSize, byteAt_set_ne hsize.1, byteAt_set_ne hsize.2]
  obtain ⟨j, rfl⟩ := Nat.exists_eq_add_of_le hi
  have hj : j < ((bytes.drop 4).take (totalSize bytes - 3 - 1)).length := by
    rw [List.length_take, List.length_drop]
    omega
  have hget : ((bytes.drop 4).take (totalSize bytes - 3 - 1))[j] = byteAt bytes (4 + j) := by
    rw [List.getElem_take, List.getElem_drop, byteAt, List.getD_eq_getElem]
  rw [cbiCrc8, cbiCrc8, htotal, List.drop_set, if_neg (by omega), Nat.add_sub_cancel_left,
    List.take_set, List.set_eq_take_append_cons_drop, if_pos hj]
  nth_rewrite 3 [← List.take_append_drop j ((bytes.drop 4).take (totalSize bytes - 3 - 1))]
  rw [List.drop_eq_getElem_cons hj]
  exact crosCrc8_ne (hget ▸ hx)

/-- A single byte that has changed in the storage, other than one of the size, is noticed. -/
theorem doCbiRead_corrupted (h : Accepted bytes) (hram : ram.length = bytes.length)
    (hi : i < totalSize bytes) (hsize : i ≠ 6 ∧ i ≠ 7) (hx : x ≠ byteAt bytes i) :
    (doCbiRead (storageOf (bytes.set i x)) ram).1 ≠ .success := by
  intro hsuccess
  have hle := h.total_le
  have h8 := h.le_total.trans hle
  unfold sizeofHeader at h8
  have h' : Accepted (bytes.set i x) := (doCbiRead_storageOf (by rw [hram, List.length_set])
    (by rw [List.length_set]; exact h8)).2 hsuccess
  have hset : byteAt (bytes.set i x) i = x := byteAt_set_self (by omega)
  rcases lt_trichotomy i 3 with hlt | rfl | hgt
  · -- the magic
    have hmagic := congrArg (byteAt · i) (h'.magic.trans h.magic.symm)
    have hbyte := byteAt_take hlt [] (show 3 ≤ bytes.length by omega)
    have hbyte' := byteAt_take hlt [] (show 3 ≤ (bytes.set i x).length by
      rw [List.length_set]; omega)
    rw [List.append_nil] at hbyte hbyte'
    exact hx (hset.symm.trans (hbyte'.symm.trans (hmagic.trans hbyte)))
  · -- the checksum itself
    exact hx (hset.symm.trans (h'.crc.symm.trans (cbiCrc8_set_crc.trans h.crc)))
  · refine cbiCrc8_set_ne hgt hi hle hsize hx (h'.crc.trans ?_)
    rw [byteAt_set_ne (by omega), h.crc]

/-- The value of the model id has changed. -/
theorem doCbiRead_corrupted_value : Accepted wholeImage ∧
    (doCbiRead (storageOf (wholeImage.set 10 8)) (List.replicate 11 0)).1 ≠ .success := by
  have h : Accepted wholeImage := ⟨rfl, by decide, by decide, by decide, by decide +kernel⟩
  exact ⟨h, doCbiRead_corrupted h rfl (by decide) (by decide) (by decide)⟩

/-! ## What was written -/

theorem totalSize_stampImage : totalSize (stampImage image) = totalSize image := by
  simp only [totalSize, stampImage]
  repeat rw [byteAt_set_ne (by decide)]

theorem accepted_stampImage (h : Holds image entries) (hmagic : image.take 3 = cbiMagic) :
    Accepted (stampImage image) := by
  have h8 := h.le_total.trans h.total_le
  unfold sizeofHeader at h8
  have htotal := @totalSize_stampImage image
  have hlength : (stampImage image).length = image.length := by
    rw [stampImage, List.length_set, List.length_set, List.length_set]
  refine ⟨?_, ?_, htotal ▸ h.le_total, htotal ▸ hlength ▸ h.total_le, ?_⟩
  · rw [stampImage, List.take_set_of_le (by decide), List.take_set_of_le (by decide),
      List.take_set_of_le (by decide), hmagic]
  · rw [stampImage, byteAt_set_ne (by decide), byteAt_set_ne (by decide),
      byteAt_set_self (by omega)]
    decide
  · rw [stampImage, cbiCrc8_set_crc, byteAt_set_self (by rw [List.length_set, List.length_set]; omega)]

/-- The header and the entries in front of other bytes -/
theorem Holds.take (h : Holds image entries) (rest : List UInt8) :
    Holds (image.take (totalSize image) ++ rest) entries := by
  have htotal := totalSize_take h.le_total rest h.total_le
  obtain ⟨⟨header, rest', hheader, himage⟩, hsize, hdistinct⟩ := h
  refine ⟨⟨header, rest, hheader, ?_⟩, htotal.trans hsize, hdistinct⟩
  rw [hsize, himage, ← hheader, ← List.length_append, List.take_left]

theorem holds_stampImage (h : Holds image entries) : Holds (stampImage image) entries := by
  obtain ⟨⟨header, rest, hheader, himage⟩, hsize, hdistinct⟩ := h
  have hlt : ∀ (l : List UInt8) i, l.length = sizeofHeader → i < 8 → i < l.length :=
    fun l i hl hi => hl ▸ hi
  refine ⟨⟨((header.set 5 cbiVersionMajor).set 4 cbiVersionMinor).set 3
    (cbiCrc8 ((image.set 5 cbiVersionMajor).set 4 cbiVersionMinor)), rest, ?_, ?_⟩,
    totalSize_stampImage.trans hsize, hdistinct⟩
  · simp [hheader]
  · subst himage
    rw [stampImage, List.append_assoc, List.set_append_left _ _ (hlt _ _ hheader (by decide)),
      List.set_append_left _ _ (hlt _ _ (by simp [hheader]) (by decide)),
      List.set_append_left _ _ (hlt _ _ (by simp [hheader]) (by decide)), List.append_assoc]

/-- What `common_cbi_set` writes answers the same after a reboot, whatever is in the memory then. -/
theorem cbiGetBoardInfo_of_stored (h : Holds image entries) (hmagic : image.take 3 = cbiMagic)
    (hram : ram.length = image.length) (tag : Nat) (buf : List UInt8) :
    ∃ result s, cbiGetBoardInfo (storageOf (stampImage image)) tag buf ⟨ram, .invalid⟩ =
      some (result, s) ∧ result.Answers buf (valueOf entries tag) := by
  have hlength : (stampImage image).length = image.length := by
    rw [stampImage, List.length_set, List.length_set, List.length_set]
  have hread := (doCbiRead_storageOf (hram.trans hlength.symm)
    (hlength ▸ h.le_total.trans h.total_le)).1 (accepted_stampImage h hmagic)
  obtain ⟨result, hget, hanswers⟩ := @Holds.get (storageOf (stampImage image)) _ _
    ((holds_stampImage h).take (ram.drop (totalSize (stampImage image)))) tag buf
  refine ⟨result, _, Eq.trans ?_ hget, hanswers⟩
  rw [cbiGetBoardInfo, cbiGetBoardInfo, cbiRead, hread]
  rfl

theorem cbiGetBoardInfo_of_stored_modelId : ∃ result s,
    cbiGetBoardInfo (storageOf (stampImage wholeImage)) 5 [0, 0] ⟨List.replicate 11 0, .invalid⟩ =
      some (result, s) ∧ result.Answers [0, 0] (some [7]) := by
  have h : Holds wholeImage [⟨5, [7], List.cons_ne_nil _ _, by decide⟩] :=
    ⟨⟨wholeImage.take 8, [], rfl, rfl⟩, rfl, List.nodup_singleton _⟩
  exact cbiGetBoardInfo_of_stored h rfl (List.length_replicate) 5 [0, 0]

end ChromiumEc.Cbi
