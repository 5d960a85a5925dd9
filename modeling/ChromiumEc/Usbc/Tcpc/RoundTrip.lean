import ChromiumEc.Usbc.Tcpc.Framing

/-!
# RoundTrip — what was sent is what is received

A bit layer that returns the symbols that were written, in their order, takes a message from one side
to the other.
-/

namespace ChromiumEc.Usbc.Tcpc

variable {Tx Rx γ : Type} {L : BitLayer Tx Rx} {crc : Crc γ} {cfg : Config}

def maxSymbols : Nat :=
  4 + 4 + 7 * 8 + 8 + 1

def sent (L : BitLayer Tx Rx) (t : Tx) (syms : List (BitVec 5)) : Tx :=
  let w := syms.foldl (fun w x => writeSym L w (bmc x)) (L.pdWritePreamble t)
  (L.pdWriteLastEdge w.2 w.1).2

/-- The layer returns the symbols in the order they were written.  `wire` takes what was sent to what
is received, and `rest r bit syms` says that at offset `bit` the symbols `syms` are still to come.  The
last bit of the last symbol may not be there. -/
structure BitLayer.Faithful (L : BitLayer Tx Rx) (wire : Tx → Rx)
    (rest : Rx → Int → List (BitVec 5) → Prop) : Prop where
  start : ∀ t syms, syms.length ≤ maxSymbols →
    0 < (L.pdFindPreamble (L.pdInitDequeue (wire (sent L t syms)))).1 ∧
      rest (L.pdFindPreamble (L.pdInitDequeue (wire (sent L t syms)))).2
        (L.pdFindPreamble (L.pdInitDequeue (wire (sent L t syms)))).1 syms
  symbols : ∀ {r bit syms more}, rest r bit (syms ++ more) → syms.length ≤ 6 → more ≠ [] →
    ∃ bit' r', L.pdDequeueBits r bit (5 * syms.length) = (bit', packed syms, r') ∧ 0 < bit' ∧
      rest r' bit' more
  lastBits : ∀ {r bit sym}, rest r bit [sym] →
    ∃ bit' r', L.pdDequeueBits r bit 4 = (bit', (sym.setWidth 4).setWidth 32, r') ∧ 0 ≤ bit'

/-! ## Half words and words -/

def symbols4b5b : List (BitVec 5) :=
  [0x1E, 0x09, 0x14, 0x15, 0x0A, 0x0B, 0x0E, 0x0F, 0x12, 0x13, 0x16, 0x17, 0x1A, 0x1B, 0x1C, 0x1D]

def symbolOf (n : BitVec 16) : BitVec 5 :=
  symbols4b5b.getD n.toNat 0

theorem tables_inverse : ∀ n < 16, bmc4b5b.getD n 0 = bmc (symbols4b5b.getD n 0) ∧
    (dec4b5b.getD (symbols4b5b.getD n 0).toNat 0).toNat = n := by
  decide

def nibble (val16 : BitVec 16) (k : Nat) : BitVec 16 :=
  (val16 >>> k) &&& 0xF

theorem nibble_toNat (val16 : BitVec 16) (k : Nat) :
    (nibble val16 k).toNat = val16.toNat / 2 ^ k % 16 := by
  have hmask : (0xF : BitVec 16).toNat = 2 ^ 4 - 1 := rfl
  rw [nibble, BitVec.toNat_and, BitVec.toNat_ushiftRight, Nat.shiftRight_eq_div_pow, hmask,
    Nat.and_two_pow_sub_one_eq_mod]

def shortSymbols (val16 : BitVec 16) : List (BitVec 5) :=
  [symbolOf (nibble val16 0), symbolOf (nibble val16 4), symbolOf (nibble val16 8),
    symbolOf (nibble val16 12)]

def wordSymbols (val32 : BitVec 32) : List (BitVec 5) :=
  shortSymbols (((val32 >>> 0) &&& 0xFFFF).setWidth 16) ++
    shortSymbols (((val32 >>> 16) &&& 0xFFFF).setWidth 16)

theorem encodeShort_eq {w : Int × Tx} {val16 : BitVec 16} : encodeShort L w val16 =
    (shortSymbols val16).foldl (fun w x => writeSym L w (bmc x)) w := by
  have hsym : ∀ k, bmc4b5b.getD (nibble val16 k).toNat 0 = bmc (symbolOf (nibble val16 k)) := by
    intro k
    have hlt : (nibble val16 k).toNat < 16 := by
      rw [nibble_toNat]
      exact Nat.mod_lt _ (by decide)
    exact (tables_inverse _ hlt).1
  simp only [encodeShort, shortSymbols, List.foldl_cons, List.foldl_nil, ← hsym]
  rfl

theorem encodeWord_eq {w : Int × Tx} {val32 : BitVec 32} : encodeWord L w val32 =
    (wordSymbols val32).foldl (fun w x => writeSym L w (bmc x)) w := by
  rw [encodeWord, wordSymbols, encodeShort_eq, encodeShort_eq, List.foldl_append]

theorem packed_cons {s : BitVec 5} {l : List (BitVec 5)} {n : Nat} (hl : (packed l).toNat < 2 ^ n)
    (hn : n + 5 ≤ 32) : (packed (s :: l)).toNat = 32 * (packed l).toNat + s.toNat ∧
      (packed (s :: l)).toNat < 2 ^ (n + 5) := by
  have hs := s.isLt
  have hpow : 2 ^ (n + 5) = 32 * 2 ^ n := by
    rw [Nat.pow_add, Nat.mul_comm]
  have hle : 2 ^ (n + 5) ≤ 2 ^ 32 := Nat.pow_le_pow_right (by decide) hn
  have hval : (packed (s :: l)).toNat = 32 * (packed l).toNat + s.toNat := by
    have hshift : (packed l).toNat <<< 5 = 32 * (packed l).toNat := by
      rw [Nat.shiftLeft_eq, Nat.mul_comm]
    have hor : (packed l).toNat <<< 5 ||| s.toNat = 32 * (packed l).toNat + s.toNat := by
      rw [← Nat.shiftLeft_add_eq_or_of_lt hs, hshift]
    calc (packed (s :: l)).toNat
        = ((packed l).toNat <<< 5) % 2 ^ 32 ||| s.toNat % 2 ^ 32 := by
          rw [packed, List.foldr_cons, BitVec.toNat_or, BitVec.toNat_shiftLeft,
            BitVec.toNat_setWidth]
          rfl
      _ = (packed l).toNat <<< 5 ||| s.toNat := by
          rw [Nat.mod_eq_of_lt (by omega), Nat.mod_eq_of_lt (by omega)]
      _ = 32 * (packed l).toNat + s.toNat := hor
  exact ⟨hval, by omega⟩

theorem packed_four (s0 s1 s2 s3 : BitVec 5) : (packed [s0, s1, s2, s3]).toNat =
    s0.toNat + 32 * s1.toNat + 1024 * s2.toNat + 32768 * s3.toNat := by
  obtain ⟨h3, hlt3⟩ := @packed_cons s3 [] 0 (by decide) (by decide)
  obtain ⟨h2, hlt2⟩ := @packed_cons s2 [s3] 5 hlt3 (by decide)
  obtain ⟨h1, hlt1⟩ := @packed_cons s1 [s2, s3] 10 hlt2 (by decide)
  obtain ⟨h0, _⟩ := @packed_cons s0 [s1, s2, s3] 15 hlt1 (by decide)
  have hnil : (packed []).toNat = 0 := rfl
  omega

theorem toNat_field (w : BitVec 32) (k : Nat) :
    ((w >>> k) &&& 0x1f).toNat = w.toNat / 2 ^ k % 32 := by
  have hmask : (0x1f : BitVec 32).toNat = 2 ^ 5 - 1 := rfl
  rw [BitVec.toNat_and, BitVec.toNat_ushiftRight, Nat.shiftRight_eq_div_pow, hmask,
    Nat.and_two_pow_sub_one_eq_mod]

theorem dec_symbolOf {n : BitVec 16} (h : n.toNat < 16) :
    (dec4b5b.getD (symbolOf n).toNat 0).setWidth 16 = n := by
  have hdec := (tables_inverse n.toNat h).2
  refine BitVec.eq_of_toNat_eq ?_
  rw [BitVec.toNat_setWidth, symbolOf, hdec, Nat.mod_eq_of_lt n.isLt]

theorem getLsbD_nibble {val16 : BitVec 16} {k i : Nat} (hi : i < 16) :
    (nibble val16 k <<< k).getLsbD i = (decide (k ≤ i ∧ i < k + 4) && val16.getLsbD i) := by
  have hmask : ∀ j, (0xF : BitVec 16).getLsbD j = decide (j < 4) := by
    intro j
    by_cases hj : j < 16
    · revert j
      decide
    · rw [BitVec.getLsbD_of_ge _ _ (by omega)]
      exact (decide_eq_false (by omega)).symm
  rw [nibble, BitVec.getLsbD_shiftLeft, BitVec.getLsbD_and, BitVec.getLsbD_ushiftRight, hmask]
  by_cases hk : k ≤ i
  · have hlt : decide (i - k < 4) = decide (i < k + 4) := decide_eq_decide.mpr (by omega)
    rw [Nat.add_sub_cancel' hk, hlt, decide_eq_true hi, decide_eq_false (Nat.not_lt_of_le hk)]
    simp [hk, Bool.and_comm]
  · simp [Nat.lt_of_not_le hk, hk]

theorem nibbles_eq (val16 : BitVec 16) : nibble val16 0 ||| nibble val16 4 <<< 4 |||
    nibble val16 8 <<< 8 ||| nibble val16 12 <<< 12 = val16 := by
  refine BitVec.eq_of_getLsbD_eq fun i hi => ?_
  have hzero : nibble val16 0 = nibble val16 0 <<< 0 := (BitVec.shiftLeft_zero _).symm
  rw [hzero]
  simp only [BitVec.getLsbD_or, getLsbD_nibble hi]
  cases val16.getLsbD i with
  | false => simp only [Bool.and_false, Bool.or_false]
  | true =>
    simp only [Bool.and_true, ← Bool.decide_or, decide_eq_true_eq]
    omega

theorem halves_eq (val32 : BitVec 32) :
    ((((val32 >>> 16) &&& 0xFFFF).setWidth 16) ++ (((val32 >>> 0) &&& 0xFFFF).setWidth 16) :
      BitVec 32) = val32 := by
  refine BitVec.eq_of_toNat_eq ?_
  have hval := val32.isLt
  have hmask : (0xFFFF : BitVec 32).toNat = 2 ^ 16 - 1 := rfl
  have hhalf : ∀ k, (((val32 >>> k) &&& 0xFFFF).setWidth 16).toNat =
      val32.toNat / 2 ^ k % 65536 := by
    intro k
    rw [BitVec.toNat_setWidth, BitVec.toNat_and, BitVec.toNat_ushiftRight,
      Nat.shiftRight_eq_div_pow, hmask, Nat.and_two_pow_sub_one_eq_mod, Nat.mod_mod]
  rw [BitVec.toNat_append, ← Nat.shiftLeft_add_eq_or_of_lt (BitVec.isLt _), hhalf, hhalf,
    Nat.shiftLeft_eq]
  omega

/-! ## Receiving -/

section Receive

variable {wire : Tx → Rx} {rest : Rx → Int → List (BitVec 5) → Prop} {r : Rx} {bit : Int}
  {more : List (BitVec 5)}

theorem decodeShort_spec (hL : L.Faithful wire rest) {val16 : BitVec 16}
    (h : rest r bit (shortSymbols val16 ++ more)) (hmore : more ≠ []) :
    ∃ bit' r', decodeShort L r bit = (bit', val16, r') ∧ 0 < bit' ∧ rest r' bit' more := by
  obtain ⟨bit', r', hdequeue, hpos, hrest⟩ := hL.symbols h (by simp [shortSymbols]) hmore
  refine ⟨bit', r', ?_, hpos, hrest⟩
  have hlen : 5 * (shortSymbols val16).length = 20 := rfl
  rw [hlen] at hdequeue
  have hfield : ∀ k, ∀ j, (packed (shortSymbols val16)).toNat / 2 ^ j % 32 =
      (symbolOf (nibble val16 k)).toNat →
      (dec4b5b.getD ((packed (shortSymbols val16) >>> j) &&& 0x1f).toNat 0).setWidth 16 =
        nibble val16 k := by
    intro k j hj
    rw [toNat_field, hj]
    refine dec_symbolOf ?_
    rw [nibble_toNat]
    exact Nat.mod_lt _ (by decide)
  have hpacked := packed_four (symbolOf (nibble val16 0)) (symbolOf (nibble val16 4))
    (symbolOf (nibble val16 8)) (symbolOf (nibble val16 12))
  have h0 := (symbolOf (nibble val16 0)).isLt
  have h4 := (symbolOf (nibble val16 4)).isLt
  have h8 := (symbolOf (nibble val16 8)).isLt
  have h12 := (symbolOf (nibble val16 12)).isLt
  unfold decodeShort
  rw [hdequeue]
  simp only
  rw [hfield 0 0 (by rw [shortSymbols, hpacked]; omega),
    hfield 4 5 (by rw [shortSymbols, hpacked]; omega),
    hfield 8 10 (by rw [shortSymbols, hpacked]; omega),
    hfield 12 15 (by rw [shortSymbols, hpacked]; omega), nibbles_eq]

theorem decodeWord_spec (hL : L.Faithful wire rest) {val32 : BitVec 32}
    (h : rest r bit (wordSymbols val32 ++ more)) (hmore : more ≠ []) :
    ∃ bit' r', decodeWord L r bit = (bit', val32, r') ∧ 0 < bit' ∧ rest r' bit' more := by
  rw [wordSymbols, List.append_assoc] at h
  obtain ⟨bit1, r1, hlow, _, hrest1⟩ :=
    decodeShort_spec hL h (List.append_ne_nil_of_right_ne_nil _ hmore)
  obtain ⟨bit2, r2, hhigh, hpos, hrest2⟩ := decodeShort_spec hL hrest1 hmore
  refine ⟨bit2, r2, ?_, hpos, hrest2⟩
  unfold decodeWord
  rw [hlow]
  simp only
  rw [hhigh]
  simp only [halves_eq]

def dataSymbols (data : Nat → BitVec 32) (is : List Nat) : List (BitVec 5) :=
  is.flatMap fun i => wordSymbols (data i)

def hashed (crc : Crc γ) (data : Nat → BitVec 32) (c : γ) (is : List Nat) : γ :=
  is.foldl (fun c i => crc.crc32Hash32 c (data i)) c

theorem readPayload_spec (hL : L.Faithful wire rest) {data payload : Nat → BitVec 32} {left p : Nat}
    {c : γ} (h : rest r bit (dataSymbols data (List.range' p left) ++ more)) (hmore : more ≠ [])
    (hbit : 0 < bit) :
    ∃ bit' r', readPayload L crc left p bit c payload r =
        (bit', hashed crc data c (List.range' p left),
          fun i => if p ≤ i ∧ i < p + left then data i else payload i, r') ∧
      0 < bit' ∧ rest r' bit' more := by
  induction left generalizing p bit c payload r with
  | zero =>
    refine ⟨bit, r, ?_, hbit, h⟩
    have hnone : ∀ i, ¬ (p ≤ i ∧ i < p + 0) := by omega
    simp only [readPayload, hnone, if_false]
    rfl
  | succ left ih =>
    rw [List.range'_succ, dataSymbols, List.flatMap_cons, List.append_assoc] at h
    obtain ⟨bit1, r1, hword, hpos1, hrest1⟩ :=
      decodeWord_spec hL h (List.append_ne_nil_of_right_ne_nil _ hmore)
    obtain ⟨bit2, r2, hread, hpos2, hrest2⟩ :=
      @ih _ _ (Function.update payload p (data p)) _ (crc.crc32Hash32 c (data p)) hrest1 hpos1
    refine ⟨bit2, r2, ?_, hpos2, hrest2⟩
    -- the object at `p` is stored first, and the others do not overwrite it
    have hpayload : (fun i => if p + 1 ≤ i ∧ i < p + 1 + left then data i
        else Function.update payload p (data p) i) =
        fun i => if p ≤ i ∧ i < p + (left + 1) then data i else payload i := by
      funext i
      rcases Nat.lt_trichotomy i p with hlt | rfl | hgt
      · rw [if_neg (by omega), if_neg (by omega), Function.update_of_ne (Nat.ne_of_lt hlt)]
      · rw [if_neg (by omega), if_pos (by omega), Function.update_self]
      · rw [Function.update_of_ne (Nat.ne_of_gt hgt)]
        by_cases hin : i < p + 1 + left
        · rw [if_pos ⟨hgt, hin⟩, if_pos (by omega)]
        · rw [if_neg fun hc => hin hc.2, if_neg (by omega)]
    rw [readPayload, if_pos hbit, hword]
    simp only
    rw [hread, hpayload, List.range'_succ]
    rfl

theorem startOf_start : ∀ vpd decodeSop, startOf ⟨vpd, decodeSop⟩
    (packed (startOfPacket ⟨vpd, decodeSop⟩)) = .found := by
  decide

theorem findStart_spec (hL : L.Faithful wire rest) {fuel : Nat} {val : BitVec 32}
    (h : rest r bit (startOfPacket cfg ++ more)) (hmore : more ≠ []) (hbit : 0 < bit) :
    ∃ bit' r', findStart L cfg (fuel + 1) bit val r =
        some (.ok (bit', packed (startOfPacket cfg), r')) ∧ 0 < bit' ∧ rest r' bit' more := by
  have hlen : (startOfPacket cfg).length = 4 := by
    unfold startOfPacket
    split <;> rfl
  have hfound := startOf_start cfg.vpd cfg.decodeSop
  obtain ⟨bit', r', hdequeue, hpos, hrest⟩ := hL.symbols h (by omega) hmore
  rw [hlen] at hdequeue
  refine ⟨bit', r', ?_, hpos, hrest⟩
  rw [findStart, if_pos hbit, hdequeue]
  simp only [hfound]

end Receive

/-! ## Messages -/

def messageCrc (crc : Crc γ) (header : BitVec 16) (data : Nat → BitVec 32) (cnt : Nat) : BitVec 32 :=
  crc.crc32Result
    (hashed crc data (crc.crc32Hash16 crc.crc32Init header) (List.range' 0 cnt))

def messageSymbols (crc : Crc γ) (cfg : Config) (header : BitVec 16) (data : Nat → BitVec 32)
    (cnt : Nat) : List (BitVec 5) :=
  startOfPacket cfg ++ (shortSymbols header ++ (dataSymbols data (List.range' 0 cnt) ++
    (wordSymbols (messageCrc crc header data cnt) ++ [pdEop])))

theorem foldl_data {data : Nat → BitVec 32} {is : List Nat} {w : Int × Tx} {c : γ} :
    is.foldl (fun (w, c) i => (encodeWord L w (data i), crc.crc32Hash32 c (data i))) (w, c) =
      ((dataSymbols data is).foldl (fun w x => writeSym L w (bmc x)) w, hashed crc data c is) := by
  induction is generalizing w c with
  | nil => rfl
  | cons i is ih =>
    rw [List.foldl_cons, ih, encodeWord_eq, ← List.foldl_append]
    rfl

theorem prepareMessage_eq {t : Tx} {header : BitVec 16} {cnt : Nat} {data : Nat → BitVec 32} :
    (prepareMessage L crc cfg t header cnt data).2 =
      sent L t (messageSymbols crc cfg header data cnt) := by
  simp only [prepareMessage, List.range_eq_range', sent, messageSymbols, List.foldl_append]
  rw [foldl_data]
  simp only [encodeShort_eq, encodeWord_eq]
  rfl

theorem length_messageSymbols {header : BitVec 16} {data : Nat → BitVec 32} {cnt : Nat}
    (hcnt : cnt ≤ 7) : (messageSymbols crc cfg header data cnt).length ≤ maxSymbols := by
  have hstart : (startOfPacket cfg).length = 4 := by
    unfold startOfPacket
    split <;> rfl
  have hshort : ∀ val16, (shortSymbols val16).length = 4 := fun _ => rfl
  have hword : ∀ val32, (wordSymbols val32).length = 8 := fun _ => rfl
  have hdata : (dataSymbols data (List.range' 0 cnt)).length = 8 * cnt := by
    rw [dataSymbols, List.length_flatMap]
    simp [hword, Nat.mul_comm]
  -- start, header, objects, CRC and end
  simp only [messageSymbols, List.length_append, hstart, hshort, hword, hdata,
    List.length_singleton, maxSymbols]
  omega

def addressBits (cfg : Config) : Nat :=
  if cfg.decodeSop then pdHeaderSop (if cfg.vpd then tcpciMsgSopPrime else tcpciMsgSop) else 0

theorem addressOf_start : addressOf cfg (packed (startOfPacket cfg)) = some (addressBits cfg) := by
  obtain ⟨vpd, decodeSop⟩ := cfg
  revert vpd decodeSop
  decide

theorem toInt_header (header : BitVec 16) {k : Nat} (hk : k < 8) :
    (header.setWidth 32 ||| BitVec.ofNat 32 (k <<< 28)).toInt =
      Int.ofNat (header.toNat + k <<< 28) := by
  have hlt := header.isLt
  have hshift : k <<< 28 = k * 268435456 := Nat.shiftLeft_eq ..
  have hval : (header.setWidth 32 ||| BitVec.ofNat 32 (k <<< 28)).toNat =
      header.toNat + k <<< 28 := by
    rw [BitVec.toNat_or, BitVec.toNat_setWidth, BitVec.toNat_ofNat, Nat.mod_eq_of_lt (by omega),
      Nat.mod_eq_of_lt (by omega), Nat.or_comm,
      ← Nat.shiftLeft_add_eq_or_of_lt (Nat.lt_of_lt_of_le hlt (by decide)), Nat.add_comm]
  rw [BitVec.toInt_eq_toNat_of_lt (by rw [hval]; omega), hval]
  rfl

theorem toInt_head (header : BitVec 16) :
    (header.setWidth 32 ||| BitVec.ofNat 32 (addressBits cfg)).toInt =
      Int.ofNat (header.toNat + addressBits cfg) := by
  have hbits : addressBits cfg = 0 <<< 28 ∨ addressBits cfg = 1 <<< 28 := by
    obtain ⟨vpd, decodeSop⟩ := cfg
    revert vpd decodeSop
    decide
  rcases hbits with h | h
  · rw [h]
    exact toInt_header header (by decide)
  · rw [h]
    exact toInt_header header (by decide)

/-- A message that was prepared is received, for every header, every number of objects and all their
values: the header is returned, with the address if the build adds it, and exactly the objects are
stored. -/
theorem round_trip {wire : Tx → Rx} {rest : Rx → Int → List (BitVec 5) → Prop}
    (hL : L.Faithful wire rest) {t : Tx} {header : BitVec 16} {data payload : Nat → BitVec 32}
    {fuel : Nat} (hfuel : 0 < fuel) :
    pdAnalyzeRx L crc cfg fuel
        (wire (prepareMessage L crc cfg t header (pdHeaderCnt header.toNat) data).2) payload =
      some (Int.ofNat (header.toNat + addressBits cfg),
        fun i => if i < pdHeaderCnt header.toNat then data i else payload i) := by
  obtain ⟨fuel, rfl⟩ := Nat.exists_eq_add_of_lt hfuel
  rw [Nat.zero_add, prepareMessage_eq]
  generalize hcnt : pdHeaderCnt header.toNat = cnt
  have hle : cnt ≤ 7 := hcnt ▸ pdHeaderCnt_le _
  have hstart := hL.start t _ (@length_messageSymbols _ crc cfg header data cnt hle)
  unfold pdAnalyzeRx
  generalize L.pdFindPreamble (L.pdInitDequeue
    (wire (sent L t (messageSymbols crc cfg header data cnt)))) = found at hstart
  obtain ⟨bit0, r0⟩ := found
  obtain ⟨hpos0, hrest0⟩ := hstart
  simp only at hpos0 hrest0 ⊢
  -- behind every part there are symbols, down to the end of the packet
  have hmore : ∀ (l : List (BitVec 5)), l ++ [pdEop] ≠ [] := fun l =>
    List.append_ne_nil_of_right_ne_nil _ (List.cons_ne_nil _ _)
  have hne : ∀ {l l' : List (BitVec 5)}, l' ≠ [] → l ++ l' ≠ [] := fun h =>
    List.append_ne_nil_of_right_ne_nil _ h
  have hend := hmore (wordSymbols (messageCrc crc header data cnt))
  obtain ⟨bit1, r1, hfind, hpos1, hrest1⟩ :=
    @findStart_spec Tx Rx L cfg wire rest r0 bit0 _ hL fuel 0 hrest0 (hne (hne hend)) hpos0
  obtain ⟨bit2, r2, hheader, hpos2, hrest2⟩ := decodeShort_spec hL hrest1 (hne hend)
  obtain ⟨bit3, r3, hread, hpos3, hrest3⟩ := @readPayload_spec Tx Rx γ L crc wire rest r2 bit2 _ hL
    data payload cnt 0 (crc.crc32Hash16 crc.crc32Init header) hrest2 hend hpos2
  obtain ⟨bit4, r4, hcrc, hpos4, hrest4⟩ :=
    decodeWord_spec hL hrest3 (List.cons_ne_nil pdEop [])
  obtain ⟨bit5, r5, hlast, hpos5⟩ := hL.lastBits hrest4
  -- an offset is no reset
  have hhard : ¬ (bit0 = pdRxErrHardReset ∨ bit0 = pdRxErrCableReset) := by
    rintro (rfl | rfl)
    · exact absurd hpos0 (by decide)
    · exact absurd hpos0 (by decide)
  have hcheck : checkTrailer L (header.setWidth 32 ||| BitVec.ofNat 32 (addressBits cfg))
      (messageCrc crc header data cnt) bit3 r3 = Int.ofNat (header.toNat + addressBits cfg) := by
    have heop : (pdEop.setWidth 4).setWidth 32 = pdEop.setWidth 32 := by decide
    rw [checkTrailer, hcrc]
    simp only [hlast, heop, ne_eq, not_true_eq_false, or_false]
    rw [if_neg (by omega), if_neg (by omega), toInt_head]
  rw [if_neg hhard, if_neg (by omega), hfind]
  simp only [Option.map_some]
  rw [if_neg (by omega), hheader, addressOf_start]
  simp only [hcnt]
  rw [hread]
  simp only
  rw [if_neg (by omega)]
  simp only [Nat.zero_add, Nat.zero_le, true_and]
  rw [← hcheck]
  rfl

def demoLayer : BitLayer (List (BitVec 32)) (List (BitVec 5)) where
  pdWritePreamble := fun _ => (128, [])
  pdWriteSym := fun t off val10 => (off + 10, t ++ [val10])
  pdWriteLastEdge := fun t off => (off + 3, t)
  pdInitDequeue := id
  pdFindPreamble := fun r => (1, r)
  pdDequeueBits := fun r off len =>
    match r with
    | [] => (-1, 0, [])
    | sym :: _ =>
      if len = 4 then (off + 4, (sym.setWidth 4).setWidth 32, r)
      else (off + len, packed (r.take (len / 5)), r.drop (len / 5))

def demoDecode (val10 : BitVec 32) : BitVec 5 :=
  ((List.finRange 32).map BitVec.ofFin).find? (fun x => (bmc x).setWidth 32 == val10) |>.getD 0

theorem demoDecode_bmc : ∀ x, demoDecode ((bmc x).setWidth 32) = x := by
  decide +kernel

theorem demoLayer_faithful : demoLayer.Faithful (List.map demoDecode)
    fun r bit syms => r = syms ∧ 0 < bit := by
  have hsent : ∀ {t syms}, sent demoLayer t syms = syms.map fun x => (bmc x).setWidth 32 := by
    intro t syms
    have hfold : ∀ {w : Int × List (BitVec 32)},
        (syms.foldl (fun w x => writeSym demoLayer w (bmc x)) w).2 =
          w.2 ++ syms.map fun x => (bmc x).setWidth 32 := by
      induction syms with
      | nil =>
        intro w
        exact (List.append_nil _).symm
      | cons x syms ih =>
        intro w
        rw [List.foldl_cons, ih, List.map_cons]
        exact List.append_assoc ..
    exact hfold
  have hwire : ∀ {t syms}, (sent demoLayer t syms).map demoDecode = syms := by
    intro t syms
    have hid : (demoDecode ∘ fun x => (bmc x).setWidth 32) = id := funext demoDecode_bmc
    rw [hsent, List.map_map, hid, List.map_id]
  refine ⟨fun t syms _ => ⟨Int.one_pos, hwire, Int.one_pos⟩, ?_, ?_⟩
  · rintro r bit syms more ⟨rfl, hpos⟩ hlen hmore
    have hdequeue : demoLayer.pdDequeueBits (syms ++ more) bit (5 * syms.length) =
        (bit + (5 * syms.length : Nat), packed syms, more) := by
      cases hall : syms ++ more with
      | nil => exact absurd (List.append_eq_nil_iff.mp hall).2 hmore
      | cons sym tail =>
        have hdiv : 5 * syms.length / 5 = syms.length := Nat.mul_div_cancel_left _ (by decide)
        have hne : 5 * syms.length ≠ 4 := by omega
        simp only [demoLayer, if_neg hne, hdiv]
        rw [← hall, List.take_left, List.drop_left]
    exact ⟨_, _, hdequeue, by omega, rfl, by omega⟩
  · rintro r bit sym ⟨rfl, hpos⟩
    exact ⟨bit + 4, [sym], rfl, by omega⟩

/-- Two objects, from a build that decodes the address -/
theorem round_trip_demo :
    pdAnalyzeRx demoLayer softwareCrc ⟨false, true⟩ 1
        ((prepareMessage demoLayer softwareCrc ⟨false, true⟩ [] 0x2342 2
          fun i => BitVec.ofNat 32 (0xdeadbeef + i)).2.map demoDecode) (fun _ => 0) =
      some (0x2342, fun i => if i < 2 then BitVec.ofNat 32 (0xdeadbeef + i) else 0) :=
  @round_trip _ _ _ demoLayer softwareCrc ⟨false, true⟩ _ _ demoLayer_faithful [] 0x2342
    (fun i => BitVec.ofNat 32 (0xdeadbeef + i)) (fun _ => 0) 1 (by decide)

end ChromiumEc.Usbc.Tcpc
